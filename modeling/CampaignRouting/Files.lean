import CampaignRouting.SortedMap
import CampaignRouting.Text.Split

/-! A tree of text files. A path that begins with a slash leads from its top, any other one from the
directory that a program runs in. That directory and those on the way to it are there, and any other
one is as long as a file is in it. -/

namespace CampaignRouting
open Text (join split)

/-- Why a file cannot be read or written. -/
structure FileError where
  code : Nat
  kind : String
  reason : String
deriving DecidableEq, Repr

namespace FileError

def notFound : FileError := ⟨2, "NotFound", "No such file or directory"⟩

def notDirectory : FileError := ⟨20, "NotADirectory", "Not a directory"⟩

def isDirectory : FileError := ⟨21, "IsADirectory", "Is a directory"⟩

/-- The error as it is shown to users. -/
def message (e : FileError) : String := e.reason ++ " (os error " ++ toString e.code ++ ")"

/-- All there is to the error, for those who look into it. -/
def details (e : FileError) : String :=
  "Os \x7b code: " ++ toString e.code ++ ", kind: " ++ e.kind ++ ", message: \"" ++ e.reason
    ++ "\" \x7d"

end FileError

/-- Files by their places in the tree, whose names are set apart by slashes. -/
abbrev Files := SortedMap String

/-- How writing a file goes wrong. -/
inductive WriteFault where
  /-- The file cannot be opened. -/
  | refused (error : FileError)
  /-- The file has been opened, so it is there and what it held is gone; so many characters of the
  text are in it by then. A character that breaks off itself is not told, as files hold texts. -/
  | brokenOff (error : FileError) (length : Nat)
deriving DecidableEq, Repr

/-- What goes wrong, if anything does, when a text is written into the file of a name. -/
abbrev WriteFaults := String → String → Option WriteFault

/-- All files can be written. -/
def WriteFaults.never : WriteFaults := fun _ _ => none

namespace Files

/-- The names on the way from the top of the tree. -/
abbrev Route := List (List Char)

/-- The path that leads along a route from the top. -/
def name (route : Route) : String := String.ofList (join '/' route)

/-- There is a directory at a route, seen from the directory `here`. -/
def IsDirectory (files : Files) (here route : Route) : Prop :=
  route.isPrefixOf here ∨ ∃ key ∈ files.keys, (join '/' route ++ ['/']).isPrefixOf key.toList

instance (files : Files) (here route : Route) : Decidable (files.IsDirectory here route) := by
  unfold IsDirectory; infer_instance

/-- What a path leads to. -/
inductive Place where
  | file (name text : String)
  | directory
  /-- Nothing yet, in a directory that is there. -/
  | free (name : String)
  /-- Nothing, and the path asks for a directory. -/
  | noDirectory
deriving DecidableEq, Repr

/-- Goes on along a path from a directory. Above the top there is only the top. -/
def walk (files : Files) (here dir : Route) : Route → Except FileError Place
  | [] => .ok .directory
  | part :: parts =>
    if part = [] ∨ part = ['.'] then walk files here dir parts
    else if part = ['.', '.'] then walk files here dir.dropLast parts
    else
      let route := dir ++ [part]
      match files.get? (name route) with
      | some text => if parts = [] then .ok (.file (name route) text) else .error .notDirectory
      | none =>
        if files.IsDirectory here route then walk files here route parts
        else if parts = [] then .ok (.free (name route))
        else if parts.all (· = []) then .ok .noDirectory
        else .error .notFound

/-- What a path leads to. -/
def place (files : Files) (here : Route) (path : String) : Except FileError Place :=
  match split '/' path.toList with
  | [[]] => .error .notFound
  | [] :: parts => files.walk here [] parts
  | parts => files.walk here here parts

/-- Reads a file, as seen from a directory. -/
def readFrom (files : Files) (here : Route) (path : String) : Except FileError String := do
  match ← files.place here path with
  | .file _ text => return text
  | .directory => throw .isDirectory
  | .free _ | .noDirectory => throw .notFound

/-- Reads a file, as seen from the top. -/
def read (files : Files) (path : String) : Except FileError String := files.readFrom [] path

/-- Puts a text into a file that can be opened. Where that breaks off, a part of the text is in the
file all the same. -/
def fill (files : Files) (name text : String) :
    Option WriteFault → Except FileError Unit × Files
  | none => (.ok (), files.insert name text)
  | some (.refused e) => (.error e, files)
  | some (.brokenOff e length) =>
    (.error e, files.insert name (String.ofList (text.toList.take length)))

/-- Writes a file, which need not be there before, as seen from a directory. -/
def writeFrom (files : Files) (here : Route) (faults : WriteFaults) (path text : String) :
    Except FileError Unit × Files :=
  match files.place here path with
  | .ok (.file name _) | .ok (.free name) => files.fill name text (faults name text)
  | .ok .directory | .ok .noDirectory => (.error .isDirectory, files)
  | .error e => (.error e, files)

end Files
end CampaignRouting
