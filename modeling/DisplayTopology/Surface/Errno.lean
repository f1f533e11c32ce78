/-!
# Error numbers

The reasons for which a configuration surface refuses a call, each with its symbol and its text: the
eight that the surface finds itself, and ten more that can be marked to happen. Symbols are distinct,
so a symbol finds its number again (`Errno.ofSymbol?_symbol`).
-/

namespace DisplayTopology

/-- Why the surface refused a call. -/
inductive Errno where
  | eperm
  | enoent
  | eio
  | eagain
  | enomem
  | eacces
  | efault
  | ebusy
  | eexist
  | enodev
  | enotdir
  | eisdir
  | einval
  | enfile
  | enospc
  | erofs
  | enametoolong
  | enotempty
  deriving DecidableEq

namespace Errno

/-- Every one of these error numbers. -/
def all : List Errno :=
  [eperm, enoent, eio, eagain, enomem, eacces, efault, ebusy, eexist, enodev, enotdir, eisdir,
    einval, enfile, enospc, erofs, enametoolong, enotempty]

/-- The symbol that names an error number. -/
def symbol : Errno → String
  | eperm => "EPERM"
  | enoent => "ENOENT"
  | eio => "EIO"
  | eagain => "EAGAIN"
  | enomem => "ENOMEM"
  | eacces => "EACCES"
  | efault => "EFAULT"
  | ebusy => "EBUSY"
  | eexist => "EEXIST"
  | enodev => "ENODEV"
  | enotdir => "ENOTDIR"
  | eisdir => "EISDIR"
  | einval => "EINVAL"
  | enfile => "ENFILE"
  | enospc => "ENOSPC"
  | erofs => "EROFS"
  | enametoolong => "ENAMETOOLONG"
  | enotempty => "ENOTEMPTY"

/-- What an error number says. -/
def reason : Errno → String
  | eperm => "Operation not permitted"
  | enoent => "No such file or directory"
  | eio => "I/O error"
  | eagain => "Try again"
  | enomem => "Out of memory"
  | eacces => "Permission denied"
  | efault => "Bad address"
  | ebusy => "Device or resource busy"
  | eexist => "File exists"
  | enodev => "No such device"
  | enotdir => "Not a directory"
  | eisdir => "Is a directory"
  | einval => "Invalid argument"
  | enfile => "File table overflow"
  | enospc => "No space left on device"
  | erofs => "Read-only file system"
  | enametoolong => "File name too long"
  | enotempty => "Directory not empty"

/-- An error number as messages show it: its symbol and what it says. -/
def message (e : Errno) : String := e.symbol ++ ": " ++ e.reason

/-- The error number with this symbol. -/
def ofSymbol? (symbol : String) : Option Errno := all.find? fun e => e.symbol == symbol

theorem mem_all (e : Errno) : e ∈ all := by cases e <;> decide

theorem ofSymbol?_symbol (e : Errno) : ofSymbol? e.symbol = some e := by cases e <;> rfl

end Errno

end DisplayTopology
