import ScriptEngine.Console.CommandLine

/-!
# Folders

A folder that holds files and nothing else, and what a path means to a program that runs in it.
-/

namespace ScriptEngine

/-- The files of a folder, by name. -/
structure Folder where
  files : List (String × List UInt8)

namespace Folder

/-- The parts of a path between slashes. -/
def parts (path : String) : List String :=
  path.splitOn "/"

/-- A part that leads nowhere else. -/
def isHere (part : String) : Bool :=
  part == "" || part == "."

/-- What is found by going along `path`, from the folder itself if `inside`, and from a directory
above it if not.  Nothing is known of what lies outside of the folder but that directories do. -/
def walk (f : Folder) (inside : Bool) : (path : List String) → CommandLine.Found
  | [] => .unreadable CommandLine.directoryReason
  | part :: rest =>
    if isHere part then walk f inside rest
    else if part == ".." then walk f false rest
    else if inside && rest.isEmpty then
      match f.files.find? (·.1 == part) with
      | some (_, content) => .bytes content
      | none => .missing
    else .missing

/-- What a path means in the folder. -/
def find (f : Folder) (path : String) : CommandLine.Found :=
  if path.isEmpty then .missing
  else f.walk (path.toList.head? != some '/') (parts path)

end Folder
end ScriptEngine
