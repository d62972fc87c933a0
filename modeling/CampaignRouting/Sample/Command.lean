import CampaignRouting.CommandLine.Plan
import CampaignRouting.Json.Printer
import CampaignRouting.Sample.Campaign

/-! The program that writes made-up campaigns into files. -/

namespace CampaignRouting.Sample
open CommandLine

/-- What is to be made, and where it is to go. -/
structure Order where
  size : Size
  output : String
  context : Option String
  seed : Option Nat
deriving DecidableEq, Repr

def options : List KnownOption :=
  [(KnownOption.text "output").withLetter 'o', .text "context", .text "segments",
    .text "max-variants", .text "pages", .text "seed"]

/-- Reads a command line; what it does not give has a default. -/
def Order.ofArguments (args : List String) : Except UsageError Order := do
  let as ← Arguments.read options false args
  match as.operands with
  | operand :: _ => throw (.unexpectedOperand operand)
  | [] =>
    let segments ← as.number "segments" 50
    let maxVariants ← as.number "max-variants" 4
    let pages ← as.number "pages" 20
    let seed ← match as.option? "seed" with
      | none => pure none
      | some _ => do pure (some (← as.number "seed" 0))
    return ⟨⟨segments, maxVariants, pages⟩, (as.option? "output").getD "generated_graph.json",
      as.option? "context", seed⟩

/-- The text of a value in a file. -/
def fileText (v : Json) : String := v.sorted.pretty

/-- What is done for an order, with the dice that are thrown where it names no seed. -/
def Order.plan (dice : Dice) (o : Order) : Plan :=
  if o.size.pages = 0 ∨ o.size.maxVariants = 0 then
    .fail "--pages and --max-variants must be at least 1"
  else
    let (parts, _) := (campaign o.size).run ((o.seed.map Dice.ofSeed).getD dice)
    let contextActions := match o.context with
      | none => []
      | some path => [
          .write path (fileText o.size.context) FileError.details,
          .print ("Wrote validation context to '" ++ path ++ "'")]
    ⟨[.print ("Generating campaign graph (" ++ toString o.size.segments ++ " segments, up to "
          ++ toString o.size.maxVariants ++ " variants each)..."),
        .write o.output (fileText parts.document) FileError.details,
        .print ("Wrote " ++ toString parts.nodes.length ++ " nodes and "
          ++ toString parts.edges.length ++ " edges to '" ++ o.output ++ "'")]
      ++ contextActions, .success⟩

/-- What a command line comes to. -/
def plan (dice : Dice) (args : List String) : Plan :=
  match Order.ofArguments args with
  | .ok o => o.plan dice
  | .error e => ⟨[], .misuse e⟩

end CampaignRouting.Sample
