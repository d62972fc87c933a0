import CampaignRouting.SortedMap

/-! The store that the router reads from, kept in memory. How it answers a write can be set for
each key, so that slow and failing stores can be tried out. Time is not simulated: whether a write
is late follows from its delay and the time it is given. -/

namespace CampaignRouting

/-- Why a write failed. -/
inductive StoreError where
  | unavailable (reason : String)
  | rejected (reason : String)
  /-- The write was given up after so many milliseconds. -/
  | timeout (limit : Nat)
deriving BEq, DecidableEq, Repr

def StoreError.message : StoreError → String
  | unavailable reason => "Config store unavailable: " ++ reason
  | rejected reason => "Config store rejected the write: " ++ reason
  | timeout limit => "Write timed out after " ++ toString limit ++ " ms"

/-- How the store answers writes to a key. -/
structure Behaviour where
  /-- A write never comes to an end. -/
  hangs : Bool
  /-- A write takes so many milliseconds. -/
  delay : Nat
  /-- A write fails in the end. -/
  failure : Option StoreError
deriving BEq, DecidableEq, Repr

namespace Behaviour

/-- Writes end at once and well. -/
def healthy : Behaviour := ⟨false, 0, none⟩

/-- A write does not end within a time. Without delay it always does. -/
def Late (b : Behaviour) (limit : Nat) : Prop := b.hangs = true ∨ limit < b.delay

instance (b : Behaviour) (limit : Nat) : Decidable (b.Late limit) := by
  unfold Late; infer_instance

/-- How a write ends that is given so much time. -/
def result (b : Behaviour) (limit : Nat) : Except StoreError Unit :=
  if b.Late limit then .error (.timeout limit)
  else match b.failure with
    | some e => .error e
    | none => .ok ()

end Behaviour

/-- The texts by their keys, and how writes to a key are answered. -/
structure Store where
  entries : SortedMap String
  behaviours : SortedMap Behaviour
  /-- The number of writes that have been begun. -/
  puts : Nat

namespace Store

def empty : Store := ⟨∅, ∅, 0⟩

def get? (s : Store) (key : String) : Option String := s.entries.get? key

def keys (s : Store) : List String := s.entries.keys

/-- How writes to a key are answered; well, unless another way has been set. -/
def behaviour (s : Store) (key : String) : Behaviour := (s.behaviours.get? key).getD .healthy

/-- Sets how writes to a key are answered from now on. -/
def behave (s : Store) (key : String) (b : Behaviour) : Store :=
  { s with behaviours := s.behaviours.insert key b }

/-- Writes a value under a key. -/
def put (s : Store) (limit : Nat) (key value : String) : Store :=
  let entries := match (s.behaviour key).result limit with
    | .ok () => s.entries.insert key value
    | .error _ => s.entries
  { s with entries, puts := s.puts + 1 }

end Store
end CampaignRouting
