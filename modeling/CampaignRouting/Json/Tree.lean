import CampaignRouting.Json.Token

/-! The structure of a JSON text up to its first fault. A tree is what every reader walks: one
that looks for a typed value, one that keeps any value, and one that only skips. The fault stands
in the tree where it stands in the text, so each reader meets it in its turn and names it in its
own terms. -/

namespace CampaignRouting.Json

/-- What stands where the first key of an object should. -/
inductive Start where
  | scalar (s : Scalar)
  | list
  | object
  | other

def Start.ofToken : Token → Start
  | .scalar s => .scalar s
  | .openList => .list
  | .openObject => .object
  | _ => .other

/-- How a list or an object ends. -/
inductive Close where
  /-- With its bracket, or with the text breaking off inside its last item. -/
  | bracket
  | endOfText
  /-- A comma, then the bracket. -/
  | commaBracket
  /-- A comma, then the end of the text. -/
  | commaEnd
  /-- An item, then neither comma nor bracket. -/
  | noComma
  /-- Something other than a key, at the start of an object. -/
  | noFirstKey (start : Start)
  /-- A comma, then something other than a key. -/
  | noKey

/-- What a text spells, with its faults where they stand. -/
inductive Tree where
  | scalar (s : Scalar)
  | list (items : List Tree) (close : Close)
  | object (members : List (Quoted × Tree)) (close : Close)
  /-- No value at all: the text ends, or the colon before the value is missing. -/
  | absent (fault : Fault)

namespace Tree

/-! ## Growing a tree from tokens

The tokens left over are `none` behind a fault. -/

mutual

def grow : Nat → List Token → Tree × Option (List Token)
  | 0, _ | _ + 1, [] => (.absent .endInValue, none)
  | fuel + 1, token :: ts =>
    match token with
    | .scalar s => (.scalar s, if s.stops then none else some ts)
    | .openList =>
      match ts with
      | [] => (.list [] .endOfText, none)
      | .closeList :: ts => (.list [] .bracket, some ts)
      | ts =>
        let (items, close, rest) := growItems fuel ts
        (.list items close, rest)
    | .openObject =>
      match ts with
      | [] => (.object [] .endOfText, none)
      | .closeObject :: ts => (.object [] .bracket, some ts)
      | .scalar (.string key) :: ts =>
        let (members, close, rest) := growMembers fuel key ts
        (.object members close, rest)
      | t :: _ => (.object [] (.noFirstKey (Start.ofToken t)), none)
    | _ => (.scalar .stray, none)

/-- The items of a list, one of which is due. -/
def growItems : Nat → List Token → List Tree × Close × Option (List Token)
  | 0, _ => ([], .endOfText, none)
  | fuel + 1, ts =>
    match grow fuel ts with
    | (item, none) => ([item], .bracket, none)
    | (item, some ts) =>
      match ts with
      | [] => ([item], .endOfText, none)
      | .closeList :: ts => ([item], .bracket, some ts)
      | [.comma] => ([item], .commaEnd, none)
      | .comma :: .closeList :: _ => ([item], .commaBracket, none)
      | .comma :: ts =>
        let (items, close, rest) := growItems fuel ts
        (item :: items, close, rest)
      | _ => ([item], .noComma, none)

/-- The members of an object, from behind the first key on. -/
def growMembers : Nat → Quoted → List Token → List (Quoted × Tree) × Close × Option (List Token)
  | 0, _, _ => ([], .endOfText, none)
  | fuel + 1, key, ts =>
    match ts with
    | .colon :: ts =>
      match grow fuel ts with
      | (value, none) => ([(key, value)], .bracket, none)
      | (value, some ts) =>
        match ts with
        | [] => ([(key, value)], .endOfText, none)
        | .closeObject :: ts => ([(key, value)], .bracket, some ts)
        | [.comma] => ([(key, value)], .commaEnd, none)
        | .comma :: .closeObject :: _ => ([(key, value)], .commaBracket, none)
        | .comma :: .scalar (.string key') :: ts =>
          let (members, close, rest) := growMembers fuel key' ts
          ((key, value) :: members, close, rest)
        | .comma :: _ => ([(key, value)], .noKey, none)
        | _ => ([(key, value)], .noComma, none)
    | [] => ([(key, .absent .endInObject)], .bracket, none)
    | _ => ([(key, .absent .expectedColon)], .bracket, none)

end

/-- The tree of a text, and whether anything but blanks follows it. Every call of `grow` and its
companions for a list or member takes a token, or is the only one that does not before the next. -/
def ofText (s : String) : Tree × Bool :=
  let ts := tokens s.toList
  let (tree, rest) := grow (2 * ts.length + 1) ts
  (tree, match rest with | some (_ :: _) => true | _ => false)

/-! ## The tree of a value that has been read -/

mutual

/-- The tree of a value; it has no faults. -/
def ofJson : Json → Tree
  | .null => .scalar (.word .null)
  | .bool b => .scalar (.word (if b then .true else .false))
  | .number n => .scalar (.number n)
  | .string s => .scalar (.string (.ofString s))
  | .array items => .list (ofItems items) .bracket
  | .object members => .object (ofMembers members) .bracket

def ofItems : List Json → List Tree
  | [] => []
  | v :: vs => ofJson v :: ofItems vs

def ofMembers : List (String × Json) → List (Quoted × Tree)
  | [] => []
  | (k, v) :: ms => (.ofString k, ofJson v) :: ofMembers ms

end
end Tree

/-! ## Faults as readers name them -/

/-- The fault of a list that is read. -/
def Close.listFault? : Close → Option Fault
  | bracket => none
  | endOfText => some .endInList
  | commaBracket => some .trailingComma
  | commaEnd => some .endInValue
  | noComma | noFirstKey _ | noKey => some .expectedListComma

/-- The fault of an object that is read. -/
def Close.objectFault? : Close → Option Fault
  | bracket => none
  | endOfText => some .endInObject
  | commaBracket => some .trailingComma
  | commaEnd => some .endInValue
  | noComma => some .expectedObjectComma
  | noFirstKey _ | noKey => some .keyNotString

/-- The fault of a list that is skipped, where a comma always promises an item. -/
def Close.skippedListFault? : Close → Option Fault
  | commaBracket => some .expectedValue
  | close => close.listFault?

/-- The fault of an object that is skipped, where a comma always promises a key. -/
def Close.skippedObjectFault? : Close → Option Fault
  | commaBracket => some .keyNotString
  | commaEnd => some .endInObject
  | close => close.objectFault?

/-- The fault of a scalar that is skipped. Neither the size of a number nor what a text says
matters. -/
def Scalar.skippedFault? : Scalar → Option Fault
  | word _ | number _ | hugeNumber => none
  | brokenWord _ fault => some fault
  | brokenNumber _ => some .invalidNumber
  | string q => q.stop
  | stray => some .expectedValue

mutual

/-- The first fault that skipping a value meets. -/
def Tree.skippedFault? : Tree → Option Fault
  | .scalar s => s.skippedFault?
  | .list items close => (skippedItemsFault? items).or close.skippedListFault?
  | .object members close => (skippedMembersFault? members).or close.skippedObjectFault?
  | .absent fault => some fault

def Tree.skippedItemsFault? : List Tree → Option Fault
  | [] => none
  | t :: ts => t.skippedFault?.or (skippedItemsFault? ts)

def Tree.skippedMembersFault? : List (Quoted × Tree) → Option Fault
  | [] => none
  | (key, value) :: ms => key.stop.or (value.skippedFault?.or (skippedMembersFault? ms))

end
end CampaignRouting.Json
