import Delivery.Config.Basic

/-!
# Configuration files

A configuration is read from a file of the working directory. A directory is a table of the files
in it; it holds no other directories, and nothing outside it is found.
-/

namespace Delivery

/-- The files of a directory, by name. -/
abbrev Directory := Table String ByteArray

namespace Directory

/-- Why a file cannot be read. -/
inductive ReadError where
  | nullByte
  | notFound
  | notDirectory
  | isDirectory
  | nameTooLong
  | notText
  deriving DecidableEq

/-- The wording of a refusal. -/
def ReadError.message : ReadError → String
  | nullByte => "file name contained an unexpected NUL byte"
  | notFound => "No such file or directory (os error 2)"
  | notDirectory => "Not a directory (os error 20)"
  | isDirectory => "Is a directory (os error 21)"
  | nameTooLong => "File name too long (os error 36)"
  | notText => "stream did not contain valid UTF-8"

/-- The longest name of a file, in bytes. -/
def longestName : Nat := 255

/-- The longest path, in bytes. -/
def longestPath : Nat := 4095

/-- Follows the parts of a path outside the directory: only the directories above it are found. -/
def followOutside : List String → ReadError
  | [] => .isDirectory
  | name :: rest =>
    if name = "" || name = "." || name = ".." then followOutside rest
    else if longestName < name.utf8ByteSize then .nameTooLong
    else .notFound

/-- Follows the parts of a path from the directory itself. -/
def follow (d : Directory) : List String → Except ReadError ByteArray
  | [] => .error .isDirectory
  | "" :: rest | "." :: rest => follow d rest
  | name :: rest =>
    if longestName < name.utf8ByteSize then .error .nameTooLong
    else if name = ".." then .error (followOutside rest)
    else
      match d.get? name, rest with
      | none, _ => .error .notFound
      | some bytes, [] => .ok bytes
      -- A file has no parts, not even an empty one.
      | some _, _ => .error .notDirectory

/-- The text of the file at a path. -/
def readText (d : Directory) (path : String) : Except ReadError String :=
  if path.toList.contains '\x00' then .error .nullByte
  else if path = "" then .error .notFound
  else if longestPath < path.utf8ByteSize then .error .nameTooLong
  else if path.startsWith "/" then .error (followOutside (path.splitOn "/"))
  else
    match follow d (path.splitOn "/") with
    | .error e => .error e
    | .ok bytes =>
      match String.fromUTF8? bytes with
      | some text => .ok text
      | none => .error .notText

end Directory

/-- Reads and checks the configuration in a file. -/
def Config.ofFile (d : Directory) (path : String) : Except ConfigError Config :=
  match d.readText path with
  | .error e => .error (.read path e.message)
  | .ok text => Config.ofText text

end Delivery
