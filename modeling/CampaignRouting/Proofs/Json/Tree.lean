import CampaignRouting.Json.Tree
import CampaignRouting.Proofs.Json.Value

/-!
# The tree of a printed value

The text of a value is cut into the tokens that spell it, whatever blanks the layout puts between
them (`tokens_print`), and these grow into the tree of the value (`Tree.growsBack`). So the tree of
a printed text is the one that the value has without any text (`Tree.ofText_print`).
-/

namespace CampaignRouting.Json

variable {bs cs mid rest : List Char} {ts us : List Token} {t : Token}

/-! ## Spelling -/

mutual

/-- The tokens of the text of a value. -/
def spell : Json → List Token
  | .null => [.scalar (.word .null)]
  | .bool b => [.scalar (.word (if b then .true else .false))]
  | .number n => [.scalar (.number n)]
  | .string s => [.scalar (.string (.ofString s))]
  | .array [] => [.openList, .closeList]
  | .array (v :: vs) => .openList :: (v.spell ++ (spellItems vs ++ [.closeList]))
  | .object [] => [.openObject, .closeObject]
  | .object ((k, v) :: ms) =>
    .openObject :: .scalar (.string (.ofString k)) :: .colon ::
      (v.spell ++ (spellMembers ms ++ [.closeObject]))

/-- The tokens of the items after the first. -/
def spellItems : List Json → List Token
  | [] => []
  | v :: vs => .comma :: (v.spell ++ spellItems vs)

/-- The tokens of the members after the first. -/
def spellMembers : List (String × Json) → List Token
  | [] => []
  | (k, v) :: ms =>
    .comma :: .scalar (.string (.ofString k)) :: .colon :: (v.spell ++ spellMembers ms)

end

/-- A value begins with a token that closes nothing. -/
theorem spell_eq_cons (v : Json) : ∃ t ts, v.spell = t :: ts ∧ t ≠ .closeList := by
  match v with
  | .null | .bool _ | .number _ | .string _ => exact ⟨_, _, rfl, nofun⟩
  | .array [] | .array (_ :: _) | .object [] | .object (_ :: _) => exact ⟨_, _, rfl, nofun⟩

/-! ## From characters to tokens -/

/-- The characters `cs` begin with the tokens `ts`, behind which `rest` is left. -/
structure Lexes (ts : List Token) (cs rest : List Char) : Prop where
  tokens (fuel : Nat) : tokensWithin (ts.length + fuel) cs = ts ++ tokensWithin fuel rest
  length : ts.length + rest.length ≤ cs.length

namespace Lexes

theorem nil (cs : List Char) : Lexes [] cs cs where
  tokens fuel := by simp
  length := by simp

theorem append (h : Lexes ts cs mid) (h' : Lexes us mid rest) : Lexes (ts ++ us) cs rest where
  tokens fuel := by
    rw [List.length_append, Nat.add_assoc, h.tokens, h'.tokens, List.append_assoc]
  length := by
    have := h.length
    have := h'.length
    rw [List.length_append]
    omega

theorem token {c : Char} (hspace : isSpace c = false) (hread : readToken c cs = (t, rest))
    (hstops : t.stops = false) (hlength : rest.length ≤ cs.length) :
    Lexes [t] (c :: cs) rest where
  tokens fuel := by
    rw [List.length_singleton, Nat.add_comm, tokensWithin,
      List.dropWhile_cons_of_neg (by simp [hspace])]
    simp only [hread, hstops]
    rfl
  length := by
    simp only [List.length_cons, List.length_nil]
    omega

/-- Blanks before a token do not count. -/
theorem blanks (h : Lexes ts cs rest) (hbs : ∀ c ∈ bs, isSpace c = true) :
    Lexes ts (bs ++ cs) rest where
  tokens fuel := by
    have hskip (n : Nat) : tokensWithin n (bs ++ cs) = tokensWithin n cs := by
      cases n with
      | zero => rfl
      | succ n => rw [tokensWithin, tokensWithin, List.dropWhile_append_of_pos hbs]
    rw [hskip, h.tokens]
  length := by
    have := h.length
    rw [List.length_append]
    omega

/-- A bracket, a comma or a colon is a token of its own. -/
theorem cons {c : Char} (h : Lexes ts cs rest) (hspace : isSpace c = false)
    (hread : readToken c cs = (t, cs)) (hstops : t.stops = false) :
    Lexes (t :: ts) (c :: cs) rest :=
  (token hspace hread hstops le_rfl).append h

theorem quoted (s : String) (rest : List Char) :
    Lexes [.scalar (.string (.ofString s))] (quoted s ++ rest) rest := by
  have hquoted : Json.quoted s ++ rest = '"' :: (s.toList.flatMap escape ++ '"' :: rest) := by
    simp [Json.quoted]
  have hread : readToken '"' (s.toList.flatMap escape ++ '"' :: rest) =
      (.scalar (.string (.ofString s)), rest) := by
    rw [readToken_quote, readQuoted_flatMap_escape]
  rw [hquoted]
  refine token rfl hread rfl ?_
  rw [List.length_append, List.length_cons]
  omega

theorem number {n : Number} (h : n.ReadsBack) (hrest : Delimits rest) :
    Lexes [.scalar (.number n)] (n.text.toList ++ rest) rest := by
  obtain ⟨c, cs, htext, hread⟩ := h
  have hstart : c = '-' ∨ c.isDigit = true :=
    (readScalar_eq_number_iff.1 hread).imp And.left And.left
  obtain ⟨hspace, htoken⟩ := readToken_number hstart (cs ++ rest)
  rw [hrest.readScalar_append hread] at htoken
  rw [htext]
  exact token hspace htoken rfl (by simp)

/-- The tokens of an object before its first member's value, or before a further one. -/
theorem key {c : Char} (name : String) (hspace : isSpace c = false)
    (hread : ∀ cs, readToken c cs = (t, cs)) (hstops : t.stops = false)
    (hbs : ∀ c ∈ bs, isSpace c = true) (rest : List Char) :
    Lexes [t, .scalar (.string (.ofString name)), .colon]
      (c :: (bs ++ (Json.quoted name ++ ':' :: rest))) rest := by
  have hcolon : Lexes [.colon] (':' :: rest) rest := (nil rest).cons rfl rfl rfl
  exact (((quoted name _).append hcolon).blanks hbs).cons hspace (hread _) hstops

end Lexes

/-- A layout puts nothing but blanks between tokens. -/
structure Spacing.Blank (s : Spacing) : Prop where
  line (depth : Nat) : ∀ c ∈ s.line depth, isSpace c = true
  afterColon : ∀ c ∈ s.afterColon, isSpace c = true

theorem Spacing.blank_compact : Spacing.compact.Blank := ⟨fun _ => nofun, nofun⟩

theorem Spacing.blank_indented : Spacing.indented.Blank where
  line depth := by
    refine List.forall_mem_cons.2 ⟨rfl, fun c hc => ?_⟩
    rw [List.eq_of_mem_replicate hc]
    rfl
  afterColon := List.forall_mem_singleton.2 rfl

section
variable {s : Spacing}

/-- Behind an item or a member comes another one, or the bracket. -/
theorem delimits_printItems (s : Spacing) (vs : List Json) (depth : Nat) (hrest : Delimits rest) :
    Delimits (printItems s depth vs ++ rest) := by
  cases vs with
  | nil => exact hrest
  | cons v vs => exact .comma _

theorem delimits_printMembers (s : Spacing) (ms : List (String × Json)) (depth : Nat)
    (hrest : Delimits rest) : Delimits (printMembers s depth ms ++ rest) := by
  cases ms with
  | nil => exact hrest
  | cons m ms => exact .comma _

mutual

theorem lexes_print (hs : s.Blank) {rest : List Char} (v : Json)
    (h : ∀ n ∈ v.numbers, n.ReadsBack) (hrest : Delimits rest) (depth : Nat) :
    Lexes v.spell (v.print s depth ++ rest) rest := by
  match v with
  | .null | .bool true | .bool false => exact .token rfl rfl rfl (by simp; omega)
  | .number n => exact .number (h n (.head _)) hrest
  | .string t => exact .quoted t rest
  | .array [] => exact ((Lexes.nil rest).cons rfl rfl rfl).cons rfl rfl rfl
  | .array (v :: vs) =>
    obtain ⟨hv, hvs⟩ := List.forall_mem_append.1 h
    have hend : Delimits (s.line depth ++ ']' :: rest) := (Delimits.bracket rest).blanks (hs.line _)
    have hbracket : Lexes [.closeList] (s.line depth ++ ']' :: rest) rest :=
      ((Lexes.nil rest).cons rfl rfl rfl).blanks (hs.line _)
    have hitems := (lexes_printItems hs vs hvs hend (depth + 1)).append hbracket
    have hvalue := lexes_print hs v hv (delimits_printItems s vs (depth + 1) hend) (depth + 1)
    simpa [print, spell] using
      ((hvalue.append hitems).blanks (hs.line (depth + 1))).cons (c := '[') rfl rfl rfl
  | .object [] => exact ((Lexes.nil rest).cons rfl rfl rfl).cons rfl rfl rfl
  | .object ((k, v) :: ms) =>
    obtain ⟨hv, hms⟩ := List.forall_mem_append.1 h
    have hend : Delimits (s.line depth ++ '\x7d' :: rest) :=
      (Delimits.brace rest).blanks (hs.line _)
    have hbrace : Lexes [.closeObject] (s.line depth ++ '\x7d' :: rest) rest :=
      ((Lexes.nil rest).cons rfl rfl rfl).blanks (hs.line _)
    have hmembers := (lexes_printMembers hs ms hms hend (depth + 1)).append hbrace
    have hvalue := lexes_print hs v hv (delimits_printMembers s ms (depth + 1) hend) (depth + 1)
    have hkey := Lexes.key (c := '\x7b') k rfl (fun _ => rfl) rfl (hs.line (depth + 1))
    simpa [print, spell] using (hkey _).append ((hvalue.append hmembers).blanks hs.afterColon)

theorem lexes_printItems (hs : s.Blank) {rest : List Char} (vs : List Json)
    (h : ∀ n ∈ itemNumbers vs, n.ReadsBack) (hrest : Delimits rest) (depth : Nat) :
    Lexes (spellItems vs) (printItems s depth vs ++ rest) rest := by
  match vs with
  | [] => exact .nil rest
  | v :: vs =>
    obtain ⟨hv, hvs⟩ := List.forall_mem_append.1 h
    have hitems := lexes_printItems hs vs hvs hrest depth
    have hvalue := lexes_print hs v hv (delimits_printItems s vs depth hrest) depth
    simpa [printItems, spellItems] using
      ((hvalue.append hitems).blanks (hs.line depth)).cons (c := ',') rfl rfl rfl

theorem lexes_printMembers (hs : s.Blank) {rest : List Char} (ms : List (String × Json))
    (h : ∀ n ∈ memberNumbers ms, n.ReadsBack) (hrest : Delimits rest) (depth : Nat) :
    Lexes (spellMembers ms) (printMembers s depth ms ++ rest) rest := by
  match ms with
  | [] => exact .nil rest
  | (k, v) :: ms =>
    obtain ⟨hv, hms⟩ := List.forall_mem_append.1 h
    have hmembers := lexes_printMembers hs ms hms hrest depth
    have hvalue := lexes_print hs v hv (delimits_printMembers s ms depth hrest) depth
    have hkey := Lexes.key (c := ',') k rfl (fun _ => rfl) rfl (hs.line depth)
    simpa [printMembers, spellMembers] using
      (hkey _).append ((hvalue.append hmembers).blanks hs.afterColon)

end

/-- The tokens of the text of a value spell it. -/
theorem tokens_print (hs : s.Blank) (v : Json) (h : ∀ n ∈ v.numbers, n.ReadsBack) :
    tokens (v.print s 0) = v.spell := by
  have hlexes := lexes_print hs v h .nil 0
  obtain ⟨fuel, hfuel⟩ := Nat.exists_eq_add_of_le hlexes.length
  have htokens := hlexes.tokens fuel
  rw [List.append_nil] at hfuel htokens
  rw [tokens, hfuel, List.length_nil, Nat.add_zero, htokens]
  cases fuel <;> simp [tokensWithin]

end

/-! ## From tokens to trees -/

namespace Tree

/-- The tokens that spell the value grow into its tree, and those behind them are left over. A level
of the tree takes two units of fuel: one for its list or object, one for its first item. -/
def GrowsBack (v : Json) : Prop :=
  ∀ (fuel : Nat) (ts : List Token), 2 * v.spell.length ≤ fuel →
    grow fuel (v.spell ++ ts) = (ofJson v, some ts)

theorem grow_openList {fuel : Nat} (ht : t ≠ .closeList) {items : List Tree} {close : Close}
    (h : growItems fuel (t :: ts) = (items, close, some us)) :
    grow (fuel + 1) (.openList :: t :: ts) = (.list items close, some us) := by
  cases t <;> first | exact absurd rfl ht | simp only [grow, h]

theorem growItems_comma {fuel : Nat} (ht : t ≠ .closeList) {item : Tree} {items : List Tree}
    {close : Close} {ts₁ ts₂ : List Token}
    (hitem : grow fuel ts₁ = (item, some (.comma :: t :: ts₂)))
    (hrest : growItems fuel (t :: ts₂) = (items, close, some us)) :
    growItems (fuel + 1) ts₁ = (item :: items, close, some us) := by
  cases t <;> first | exact absurd rfl ht | simp only [growItems, hitem, hrest]

theorem growItems_spell {v : Json} {vs : List Json} (h : ∀ w ∈ v :: vs, GrowsBack w) (fuel : Nat)
    (hfuel : 2 * (v.spell.length + (spellItems vs).length) < fuel) (ts : List Token) :
    growItems fuel (v.spell ++ (spellItems vs ++ .closeList :: ts)) =
      (ofItems (v :: vs), .bracket, some ts) := by
  induction vs generalizing v fuel with
  | nil =>
    obtain ⟨fuel, rfl⟩ := Nat.exists_eq_add_one.2 (Nat.zero_lt_of_lt hfuel)
    have hitem := h v (.head _) fuel (.closeList :: ts) (by omega)
    simp only [growItems, spellItems, List.nil_append, hitem]
    rfl
  | cons w vs ih =>
    obtain ⟨fuel, rfl⟩ := Nat.exists_eq_add_one.2 (Nat.zero_lt_of_lt hfuel)
    obtain ⟨hv, hvs⟩ := List.forall_mem_cons.1 h
    obtain ⟨t, us, hspell, ht⟩ := spell_eq_cons w
    simp only [spellItems, List.length_cons, List.length_append] at hfuel
    have hitem := hv fuel (spellItems (w :: vs) ++ .closeList :: ts) (by omega)
    have hrest := ih hvs fuel (by omega)
    rw [spellItems, List.cons_append, List.append_assoc, hspell] at hitem ⊢
    rw [hspell] at hrest
    exact growItems_comma ht hitem hrest

theorem growMembers_spell {k : String} {v : Json} {ms : List (String × Json)}
    (h : ∀ m ∈ (k, v) :: ms, GrowsBack m.2) (fuel : Nat)
    (hfuel : 2 * (v.spell.length + (spellMembers ms).length) < fuel) (ts : List Token) :
    growMembers fuel (.ofString k)
        (.colon :: (v.spell ++ (spellMembers ms ++ .closeObject :: ts))) =
      (ofMembers ((k, v) :: ms), .bracket, some ts) := by
  induction ms generalizing k v fuel with
  | nil =>
    obtain ⟨fuel, rfl⟩ := Nat.exists_eq_add_one.2 (Nat.zero_lt_of_lt hfuel)
    have hv : GrowsBack v := h (k, v) (.head _)
    have hvalue := hv fuel (.closeObject :: ts) (by omega)
    simp only [growMembers, spellMembers, List.nil_append, hvalue]
    rfl
  | cons m ms ih =>
    obtain ⟨fuel, rfl⟩ := Nat.exists_eq_add_one.2 (Nat.zero_lt_of_lt hfuel)
    obtain ⟨hv, hms⟩ : GrowsBack v ∧ ∀ e ∈ m :: ms, GrowsBack e.2 :=
      List.forall_mem_cons.1 h
    simp only [spellMembers, List.length_cons, List.length_append] at hfuel
    have hvalue := hv fuel (spellMembers (m :: ms) ++ .closeObject :: ts) (by omega)
    have hrest := ih (k := m.1) (v := m.2) hms fuel (by omega)
    simp only [growMembers, hvalue]
    simp only [spellMembers, List.cons_append, List.append_assoc, hrest]
    rfl

theorem growsBack (v : Json) : GrowsBack v := by
  induction v using Json.induction with
  | null | bool _ | number _ | string _ =>
    intro fuel ts hfuel
    obtain ⟨fuel, rfl⟩ := Nat.exists_eq_add_of_lt (Nat.zero_lt_of_lt hfuel)
    rfl
  | array vs ih =>
    intro fuel ts hfuel
    cases vs with
    | nil =>
      obtain ⟨fuel, rfl⟩ := Nat.exists_eq_add_of_lt (Nat.zero_lt_of_lt hfuel)
      rfl
    | cons v vs =>
      simp only [spell, List.length_cons, List.length_append, List.length_nil] at hfuel
      obtain ⟨fuel, rfl⟩ := Nat.exists_eq_add_one.2 (show 0 < fuel by omega)
      have hitems := growItems_spell ih fuel (by omega) ts
      -- The list is not taken for an empty one.
      obtain ⟨t, us, hspell, ht⟩ := spell_eq_cons v
      rw [hspell] at hitems
      simpa [spell, hspell, ofJson] using grow_openList ht hitems
  | object ms ih =>
    intro fuel ts hfuel
    cases ms with
    | nil =>
      obtain ⟨fuel, rfl⟩ := Nat.exists_eq_add_of_lt (Nat.zero_lt_of_lt hfuel)
      rfl
    | cons m ms =>
      simp only [spell, List.length_cons, List.length_append, List.length_nil] at hfuel
      obtain ⟨fuel, rfl⟩ := Nat.exists_eq_add_one.2 (show 0 < fuel by omega)
      have hmembers := growMembers_spell ih fuel (by omega) ts
      simp [spell, grow, hmembers, ofJson]

/-- A value is written as a text of its own tree, in every layout. -/
theorem ofText_print {s : Spacing} (hs : s.Blank) (v : Json) (h : ∀ n ∈ v.numbers, n.ReadsBack) :
    ofText (String.ofList (v.print s 0)) = (ofJson v, false) := by
  have hgrow := growsBack v (2 * v.spell.length + 1) [] (by omega)
  rw [List.append_nil] at hgrow
  simp only [ofText, String.toList_ofList, tokens_print hs v h, hgrow]

end Tree
end CampaignRouting.Json
