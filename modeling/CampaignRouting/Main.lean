import CampaignRouting.CommandLine.Command
import CampaignRouting.Sample.Command

/-! The program. Its first argument is a command on a campaign, or `sample`, which makes one up. All
decisions are made by plans; here files are read for them, and they are carried out. -/

namespace CampaignRouting.Main
open CommandLine

/-- Why a file could not be read or written, as the system tells it. -/
def fileError : IO.Error → FileError
  | .noFileOrDirectory .. => .notFound
  | .inappropriateType .. => .isDirectory
  | .permissionDenied .. => ⟨13, "PermissionDenied", "Permission denied"⟩
  | e => ⟨0, "Other", toString e⟩

/-- All environment variables, where the system shows them to the program as a file. -/
def environment : IO Environment := do
  let text ← try IO.FS.readFile "/proc/self/environ" catch _ => pure ""
  return (Text.split '\x00' text.toList).map fun cs =>
    (String.ofList (cs.takeWhile (· ≠ '=')), String.ofList ((cs.dropWhile (· ≠ '=')).drop 1))

/-- Reads the files at some paths. -/
def reader (paths : List String) : IO Reader := do
  let found ← paths.mapM fun (path : String) => do
    let text ← try pure (Except.ok (← IO.FS.readFile path)) catch e => pure (.error (fileError e))
    return (path, text)
  return fun path => (found.lookup path).getD (.error .notFound)

/-- Actions on the terminal and the disk. -/
def outlet : Outlet IO where
  print := IO.println
  write path text := do
    try IO.FS.writeFile path text; return .ok () catch e => return .error (fileError e)

/-- Carries out a plan. The message of a failure goes behind `lead`. -/
def carryOut (lead : String) (plan : Plan) : IO UInt32 := do
  let exit ← CommandLine.carryOut outlet plan.exit plan.actions
  match exit with
  | .failure message => IO.eprintln (lead ++ message)
  | .misuse e => IO.eprintln ("error: " ++ e.message)
  | .success | .refusal => pure ()
  return exit.code.toUInt32

def sample (args : List String) : IO UInt32 := do
  let seed ← IO.rand 0 UInt32.size
  carryOut "Error: " (Sample.plan (.ofSeed seed) args)

def campaign (args : List String) : IO UInt32 := do
  let env ← environment
  match Invocation.ofArguments env args with
  | .ok i =>
    let formats := ConfigFormat.standard
    carryOut "\nError: " (i.plan env (← reader (i.inputs formats)) formats)
  | .error e => carryOut "" ⟨[], .misuse e⟩

end CampaignRouting.Main

/-- The first argument tells which of the two programs to run. -/
def main (args : List String) : IO UInt32 :=
  match args with
  | "sample" :: args => CampaignRouting.Main.sample args
  | args => CampaignRouting.Main.campaign args
