import CampaignRouting.CommandLine.Options
import CampaignRouting.Files

/-! What a program does once it has made up its mind: lines to print and files to write, then the
end. A file that cannot be written ends it at once. -/

namespace CampaignRouting.CommandLine

/-- One thing that a program does. -/
inductive Action where
  | print (line : String)
  /-- Writes a file; `complaint` says what is wrong where that fails. -/
  | write (path text : String) (complaint : FileError → String)

/-- How a program ends. -/
inductive Exit where
  | success
  /-- All went well, and the answer is no. -/
  | refusal
  | misuse (error : UsageError)
  | failure (message : String)
deriving DecidableEq, Repr

namespace Exit

/-- The code that the program ends with. A refusal is told from a failure. -/
def code : Exit → Nat
  | success => 0
  | failure _ => 1
  | refusal | misuse _ => 2

/-- The message of a failure. -/
def failure? : Exit → Option String
  | failure message => some message
  | _ => none

end Exit

/-- What is done, in this order, and how it ends if all goes well. -/
structure Plan where
  actions : List Action
  exit : Exit

namespace Plan

/-- Does nothing, and ends with a message. -/
def fail (message : String) : Plan := ⟨[], .failure message⟩

/-- The plan of an attempt, which is to fail where the attempt does. -/
def ofAttempt : Except String Plan → Plan
  | .ok plan => plan
  | .error message => fail message

end Plan

/-- How actions are carried out. -/
structure Outlet (m : Type → Type) where
  print : String → m Unit
  write : String → String → m (Except FileError Unit)

/-- Carries out actions one after the other, up to the first that fails, and tells how the program
ends. -/
def carryOut {m : Type → Type} [Monad m] (outlet : Outlet m) (exit : Exit) : List Action → m Exit
  | [] => pure exit
  | .print line :: actions => do
    outlet.print line
    carryOut outlet exit actions
  | .write path text complaint :: actions => do
    match ← outlet.write path text with
    | .ok () => carryOut outlet exit actions
    | .error e => pure (.failure (complaint e))

/-! ## On a tree of files -/

/-- What a program has printed and the files as it has left them. -/
structure Traces where
  stdout : String
  files : Files

/-- Actions on a tree of files, seen from a directory. -/
def Traces.outlet (here : Files.Route) (faults : WriteFaults) : Outlet (StateM Traces) where
  print line := modify fun t => { t with stdout := t.stdout ++ line ++ "\n" }
  write path text := fun t =>
    let (result, files) := t.files.writeFrom here faults path text
    (result, { t with files })

/-- What a program leaves behind. -/
structure Result where
  stdout : String
  exit : Exit
  files : Files

/-- Carries a plan out on a tree of files. -/
def Plan.run (plan : Plan) (files : Files) (here : Files.Route := [])
    (faults : WriteFaults := .never) : Result :=
  let (exit, t) := (carryOut (Traces.outlet here faults) plan.exit plan.actions).run ⟨"", files⟩
  ⟨t.stdout, exit, t.files⟩

end CampaignRouting.CommandLine
