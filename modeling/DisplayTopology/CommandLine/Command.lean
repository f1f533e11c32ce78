import DisplayTopology.CommandLine.Token

/-!
# Commands

A command asks for a number of standard displays, for one display per token, or for cleaning up.
Every token is read before anything is done, so a mistake in the last one has no effect on the
device.
-/

namespace DisplayTopology

/-- What a command line asks for. -/
inductive Command where
  /-- This many standard displays. -/
  | generic (count : Nat)
  /-- One display per specification. -/
  | config (specs : List ConnectorSpec)
  /-- Removal of what an earlier run left behind. -/
  | cleanup
  deriving DecidableEq

/-- What is wrong with a command line. -/
inductive CommandError where
  | noArguments
  | cleanupTakesNone
  | noTokens
  | invalidCount (text : String)
  | token (e : TokenError)
  deriving DecidableEq

namespace CommandError

/-- What an error says. -/
def message : CommandError → String
  | noArguments => "No arguments provided"
  | cleanupTakesNone => "--cleanup takes no arguments"
  | noTokens => "No configuration parameters provided after --config"
  | invalidCount text =>
    "Invalid number of connectors: " ++ text ++ ". Must be a positive integer."
  | token e => "Failed to parse connector configurations: " ++ e.message

/-- The error of the topology that is the cause. -/
def cause? : CommandError → Option TopologyError
  | token e => e.cause?
  | _ => none

end CommandError

namespace Command

/-- The number of displays that an argument asks for, which must be positive. -/
def readCount (text : String) : Except CommandError Command :=
  match Text.numeral? Text.wordLimit64 text.toList with
  | some (n + 1) => .ok (.generic (n + 1))
  | _ => .error (.invalidCount text)

/-- The command that arguments give. -/
def ofArguments : List String → Except CommandError Command
  | [] => .error .noArguments
  | first :: rest =>
    if first = "--cleanup" then
      if rest = [] then .ok .cleanup else .error .cleanupTakesNone
    else if first = "--config" then
      if rest = [] then .error .noTokens
      else
        match ConnectorSpec.ofTokens 0 rest with
        | .ok specs => .ok (.config specs)
        | .error e => .error (.token e)
    else readCount first

/-- How the command is used, line by line. -/
def usageLines : List String := [
  "Usage:",
  "  Simple mode:   vkms-setup <number_of_connectors>",
  "  Advanced mode: vkms-setup --config TYPE,NUMBER_OF_OVERLAY_PLANES[,EDID_NAME] ...",
  "  Cleanup:       vkms-setup --cleanup",
  "Where:",
  "  TYPE = connector type (DP, HDMIA, HDMIB, eDP, DSI, VGA, VIRTUAL, WRITEBACK, DPI, UNKNOWN)",
  "  NUMBER_OF_OVERLAY_PLANES = number of additional overlay planes (integer)",
  "  EDID_NAME = optional EDID profile name (e.g. ACI_9713_ASUS_VE258_DP)",
  "Examples:",
  "  vkms-setup 3",
  "  vkms-setup --config DP,2 HDMIA,1",
  "  vkms-setup --config DP,2,ACI_9713_ASUS_VE258_DP HDMIA,1,ACI_9155_ASUS_VH238_HDMI"]

/-- How the command is used. -/
def usage : String := String.intercalate "\n" usageLines

end Command

end DisplayTopology
