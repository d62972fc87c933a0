import CampaignRouting.Proofs.Json.Value
import CampaignRouting.Toml.Document

/-!
# Tables that have been read

While a text is read, every table keeps its entries in ascending order of their keys. So the value
that a text gives is sorted throughout (`Toml.sorted_ofText?`).
-/

namespace CampaignRouting

namespace Toml

open Json (sorted_object_eq_self sorted_array_eq_self)

/-! ## Items -/

theorem Item.toJsonMembers_eq_map (ms : Members) :
    Item.toJsonMembers ms = ms.map fun m => (m.1, m.2.toJson) := by
  induction ms with
  | nil => rfl
  | cons m ms ih => rw [Item.toJsonMembers, ih, List.map_cons]

/-- The tables in an item are in ascending order of their keys. -/
inductive Item.Sorted : Item → Prop
  | value {v : Json} (sorted : v.sorted = v) : Item.Sorted (.value v)
  | table {ms : Members} (origin : Origin) (ascending : Ascending ms)
      (members : ∀ m ∈ ms, Item.Sorted m.2) : Item.Sorted (.table origin ms)
  | tables {earlier : List Json} {ms : Members} (sorted : ∀ v ∈ earlier, v.sorted = v)
      (ascending : Ascending ms) (members : ∀ m ∈ ms, Item.Sorted m.2) :
      Item.Sorted (.tables earlier ms)

structure Members.Sorted (ms : Members) : Prop where
  ascending : Ascending ms
  members : ∀ m ∈ ms, m.2.Sorted

variable {ms ms' : Members} {item : Item} {key : String} {path : List String} {value : Json}

/-- An object is sorted whose keys ascend and whose members are sorted. -/
theorem sorted_object_toJsonMembers (hascending : Ascending ms)
    (h : ∀ m ∈ ms, m.2.toJson.sorted = m.2.toJson) :
    (Json.object (Item.toJsonMembers ms)).sorted = .object (Item.toJsonMembers ms) := by
  rw [Item.toJsonMembers_eq_map]
  exact sorted_object_eq_self (List.pairwise_map.2 hascending) (List.forall_mem_map.2 h)

/-- An item that is in order stays so as a value. -/
theorem Item.Sorted.toJson (h : item.Sorted) : item.toJson.sorted = item.toJson := by
  induction h with
  | value hv => exact hv
  | table origin hascending _ ih => exact sorted_object_toJsonMembers hascending ih
  | tables hearlier hascending _ ih =>
    refine sorted_array_eq_self fun v hv => ?_
    rcases List.mem_append.1 hv with hv | hv
    · exact hearlier v hv
    · rw [List.mem_singleton.1 hv]
      exact sorted_object_toJsonMembers hascending ih

namespace Members

theorem Sorted.nil : Members.Sorted [] := ⟨.nil, nofun⟩

theorem Sorted.toJson (h : ms.Sorted) : ms.toJson.sorted = ms.toJson :=
  (Item.Sorted.table .header h.ascending h.members).toJson

/-- A table stays in order when an item that is in order is put into it. -/
theorem Sorted.insertEntry (h : ms.Sorted) (key : String) (hitem : item.Sorted) :
    Members.Sorted (insertEntry key item ms) where
  ascending := ascending_insertEntry key item h.ascending
  members m hm := by
    rcases mem_insertEntry hm with rfl | hm
    · exact hitem
    · exact h.members m hm

theorem Sorted.lookup (h : ms.Sorted) (hitem : List.lookup key ms = some item) : item.Sorted :=
  h.members _ ((lookup_eq_some_iff_mem h.ascending.nodup).1 hitem)

/-! ## Pairs and headers -/

theorem Sorted.table (h : ms.Sorted) (origin : Origin) : Item.Sorted (.table origin ms) :=
  .table origin h.ascending h.members

theorem Sorted.tables (h : ms.Sorted) {earlier : List Json}
    (hearlier : ∀ v ∈ earlier, v.sorted = v) : Item.Sorted (.tables earlier ms) :=
  .tables hearlier h.ascending h.members

/-- A value goes to its path through tables, each of which stays in order. -/
theorem Sorted.addPair (hvalue : value.sorted = value) (h : ms.Sorted)
    (hms' : addPair value path ms = some ms') : ms'.Sorted := by
  induction path generalizing ms ms' with
  | nil => cases hms'
  | cons key path ih =>
    cases path with
    | nil =>
      rw [Members.addPair] at hms'
      split at hms'
      · cases hms'
        exact h.insertEntry key (.value hvalue)
      · cases hms'
    | cons key' keys =>
      rw [Members.addPair] at hms'
      split at hms'
      · obtain ⟨inner, hinner, rfl⟩ := Option.map_eq_some_iff.1 hms'
        exact h.insertEntry key ((ih .nil hinner).table .dotted)
      · next origin inner hlookup =>
        split at hms'
        · cases hms'
        · obtain ⟨inner', hinner', rfl⟩ := Option.map_eq_some_iff.1 hms'
          cases h.lookup hlookup with
          | table _ hascending hmembers =>
            exact h.insertEntry key ((ih ⟨hascending, hmembers⟩ hinner').table origin)
      · next earlier inner hlookup =>
        split at hms'
        · cases hms'
        · obtain ⟨inner', hinner', rfl⟩ := Option.map_eq_some_iff.1 hms'
          cases h.lookup hlookup with
          | tables hearlier hascending hmembers =>
            exact h.insertEntry key ((ih ⟨hascending, hmembers⟩ hinner').tables hearlier)
      · cases hms'

/-- What each step keeps in order, all steps together do. -/
theorem Sorted.foldlM {α : Type} {step : Members → α → Option Members} {as : List α}
    (hstep : ∀ a ∈ as, ∀ ms ms' : Members, ms.Sorted → step ms a = some ms' → ms'.Sorted)
    (h : ms.Sorted) (hms' : as.foldlM step ms = some ms') : ms'.Sorted := by
  induction as generalizing ms with
  | nil =>
    cases hms'
    exact h
  | cons a as ih =>
    obtain ⟨ha, has⟩ := List.forall_mem_cons.1 hstep
    obtain ⟨next, hnext, hms'⟩ := Option.bind_eq_some_iff.1 hms'
    exact ih has (ha ms next h hnext) hms'

theorem Sorted.addPairs {pairs : List (List String × Json)}
    (hpairs : ∀ p ∈ pairs, p.2.sorted = p.2) (h : ms.Sorted)
    (hms' : addPairs pairs ms = some ms') : ms'.Sorted :=
  h.foldlM (fun p hp _ _ hms hnext => hms.addPair (hpairs p hp) hnext) hms'

/-- Whatever a header opens is sorted if what it finds is. -/
def KeepsSorted (open? : Option Item → Option Item) : Prop :=
  ∀ found opened, (∀ item, found = some item → item.Sorted) → open? found = some opened →
    opened.Sorted

/-- A header leaves in order what it opens, be it new or named before. -/
theorem keepsSorted_openTable {pairs : List (List String × Json)}
    (hpairs : ∀ p ∈ pairs, p.2.sorted = p.2) : KeepsSorted (openTable pairs) := by
  intro found opened hfound hopened
  unfold openTable at hopened
  split at hopened
  · obtain ⟨inner, hinner, rfl⟩ := Option.map_eq_some_iff.1 hopened
    exact (Sorted.nil.addPairs hpairs hinner).table .header
  · obtain ⟨inner', hinner', rfl⟩ := Option.map_eq_some_iff.1 hopened
    cases hfound _ rfl with
    | table _ hascending hmembers =>
      exact (Sorted.addPairs hpairs ⟨hascending, hmembers⟩ hinner').table .header
  · cases hopened

/-- The table before becomes a value when the next one of its name is opened. -/
theorem keepsSorted_openNext {pairs : List (List String × Json)}
    (hpairs : ∀ p ∈ pairs, p.2.sorted = p.2) : KeepsSorted (openNext pairs) := by
  intro found opened hfound hopened
  unfold openNext at hopened
  split at hopened
  · obtain ⟨inner, hinner, rfl⟩ := Option.map_eq_some_iff.1 hopened
    exact (Sorted.nil.addPairs hpairs hinner).tables nofun
  · obtain ⟨inner, hinner, rfl⟩ := Option.map_eq_some_iff.1 hopened
    cases hfound _ rfl with
    | tables hearlier hascending hmembers =>
      refine (Sorted.nil.addPairs hpairs hinner).tables fun v hv => ?_
      rcases List.mem_append.1 hv with hv | hv
      · exact hearlier v hv
      · rw [List.mem_singleton.1 hv]
        exact Sorted.toJson ⟨hascending, hmembers⟩
  · cases hopened

/-- All tables on the way to one that is opened stay in order. -/
theorem Sorted.openAt {open? : Option Item → Option Item} (hopen : KeepsSorted open?)
    (h : ms.Sorted) (hms' : openAt open? path ms = some ms') : ms'.Sorted := by
  induction path generalizing ms ms' with
  | nil => cases hms'
  | cons key path ih =>
    cases path with
    | nil =>
      obtain ⟨item, hitem, rfl⟩ := Option.map_eq_some_iff.1 hms'
      exact h.insertEntry key (hopen _ _ (fun _ hfound => h.lookup hfound) hitem)
    | cons key' keys =>
      rw [Members.openAt] at hms'
      split at hms'
      · obtain ⟨inner, hinner, rfl⟩ := Option.map_eq_some_iff.1 hms'
        exact h.insertEntry key ((ih .nil hinner).table .passing)
      · next origin inner hlookup =>
        obtain ⟨inner', hinner', rfl⟩ := Option.map_eq_some_iff.1 hms'
        cases h.lookup hlookup with
        | table _ hascending hmembers =>
          exact h.insertEntry key ((ih ⟨hascending, hmembers⟩ hinner').table origin)
      · next earlier inner hlookup =>
        obtain ⟨inner', hinner', rfl⟩ := Option.map_eq_some_iff.1 hms'
        cases h.lookup hlookup with
        | tables hearlier hascending hmembers =>
          exact h.insertEntry key ((ih ⟨hascending, hmembers⟩ hinner').tables hearlier)
      · cases hms'

end Members

/-- The table of a document is in order, as all that is added to it is. -/
theorem sorted_tableOf? {pairs : List (List String × Json)} {sections : List Section} {v : Json}
    (hpairs : ∀ p ∈ pairs, p.2.sorted = p.2)
    (hsections : ∀ s ∈ sections, ∀ p ∈ s.pairs, p.2.sorted = p.2)
    (h : tableOf? pairs sections = some v) : v.sorted = v := by
  obtain ⟨ms, hms, h⟩ := Option.bind_eq_some_iff.1 h
  obtain ⟨ms', hms', h⟩ := Option.bind_eq_some_iff.1 h
  cases h
  have hstart : ms.Sorted := Members.Sorted.nil.addPairs hpairs hms
  refine (hstart.foldlM (fun s hs before after hbefore hafter => ?_) hms').toJson
  refine hbefore.openAt ?_ hafter
  split
  · exact Members.keepsSorted_openNext (hsections s hs)
  · exact Members.keepsSorted_openTable (hsections s hs)

/-! ## Values -/

theorem sorted_fit? {i : Int} {v : Json} (h : fit? i = some v) : v.sorted = v := by
  unfold fit? at h
  split at h <;> cases h
  rfl

theorem sorted_integer? {cs : List Char} {v : Json} (h : integer? cs = some v) :
    v.sorted = v := by
  unfold integer? at h
  split at h <;> obtain ⟨ds, -, h⟩ := Option.bind_eq_some_iff.1 h <;> exact sorted_fit? h

theorem sorted_float? {cs : List Char} {v : Json} (h : float? cs = some v) : v.sorted = v := by
  unfold float? at h
  dsimp only at h
  split at h
  · cases h
    rfl
  · split at h
    · cases h
      rfl
    · obtain ⟨whole, -, h⟩ := Option.bind_eq_some_iff.1 h
      split at h
      · cases h
      · obtain ⟨fraction, -, h⟩ := Option.bind_eq_some_iff.1 h
        obtain ⟨parts, -, h⟩ := Option.bind_eq_some_iff.1 h
        obtain ⟨exponent, -, h⟩ := Option.bind_eq_some_iff.1 h
        split at h <;> cases h
        rfl
      · obtain ⟨parts, -, h⟩ := Option.bind_eq_some_iff.1 h
        obtain ⟨exponent, -, h⟩ := Option.bind_eq_some_iff.1 h
        split at h <;> cases h
        rfl

/-- A scalar has no members that could be out of order. -/
theorem sorted_scalar? {cs : List Char} {v : Json} (h : scalar? cs = some v) : v.sorted = v := by
  unfold scalar? at h
  split at h
  · cases h; rfl
  · split at h
    · cases h; rfl
    · rcases Option.or_eq_some_iff.1 h with h | ⟨-, h⟩
      · rcases Option.or_eq_some_iff.1 h with h | ⟨-, h⟩
        · exact sorted_integer? h
        · exact sorted_float? h
      · obtain ⟨cs, -, rfl⟩ := Option.map_eq_some_iff.1 h
        rfl

/-- What the reader gives in `fuel` steps is sorted. -/
structure ReadsSorted (fuel : Nat) : Prop where
  value : ∀ {room ts v rest}, readValue room fuel ts = some (v, rest) → v.sorted = v
  items : ∀ {room ts vs rest}, readItems room fuel ts = some (vs, rest) → ∀ v ∈ vs, v.sorted = v
  pairs : ∀ {room ts ps rest}, readPairs room fuel ts = some (ps, rest) →
    ∀ p ∈ ps, p.2.sorted = p.2

namespace ReadsSorted

variable {fuel room : Nat} {ts rest : List Token}

theorem zero : ReadsSorted 0 where
  value h := nomatch h
  items h := nomatch h
  pairs h := nomatch h

/-- A value between brackets is in order if what is read with less fuel is. -/
theorem readValue {v : Json} (ih : ReadsSorted fuel)
    (h : readValue room (fuel + 1) ts = some (v, rest)) : v.sorted = v := by
  cases ts with
  | nil => cases h
  | cons token ts =>
    rw [Toml.readValue.eq_def] at h
    dsimp only at h
    split at h
    · cases h
      rfl
    · cases h
      rfl
    · obtain ⟨_, hscalar, h⟩ := Option.map_eq_some_iff.1 h
      cases h
      exact sorted_scalar? hscalar
    · obtain ⟨⟨vs, r⟩, hitems, h⟩ := Option.map_eq_some_iff.1 h
      cases h
      exact sorted_array_eq_self (ih.items hitems)
    · split at h
      · cases h
        rfl
      · obtain ⟨⟨ps, r⟩, hpairs, h⟩ := Option.bind_eq_some_iff.1 h
        obtain ⟨w, hw, h⟩ := Option.bind_eq_some_iff.1 h
        cases h
        exact sorted_tableOf? (ih.pairs hpairs) (List.forall_mem_nil _) hw
    · cases h

theorem readItems {vs : List Json} (ih : ReadsSorted fuel)
    (h : readItems room (fuel + 1) ts = some (vs, rest)) : ∀ v ∈ vs, v.sorted = v := by
  rw [Toml.readItems.eq_def] at h
  dsimp only at h
  split at h
  · cases h
    exact nofun
  · obtain ⟨⟨v, r⟩, hv, h⟩ := Option.bind_eq_some_iff.1 h
    dsimp only at h
    split at h
    · cases h
      exact List.forall_mem_singleton.2 (ih.value hv)
    · obtain ⟨⟨vs', r'⟩, hvs, h⟩ := Option.bind_eq_some_iff.1 h
      cases h
      exact List.forall_mem_cons.2 ⟨ih.value hv, ih.items hvs⟩
    · cases h

/-- The pairs of an inline table, of which each value is in order. -/
theorem readPairs {ps : List (List String × Json)} (ih : ReadsSorted fuel)
    (h : readPairs room (fuel + 1) ts = some (ps, rest)) : ∀ p ∈ ps, p.2.sorted = p.2 := by
  rw [Toml.readPairs.eq_def] at h
  obtain ⟨⟨key, r⟩, -, h⟩ := Option.bind_eq_some_iff.1 h
  dsimp only at h
  split at h
  · obtain ⟨⟨v, r'⟩, hv, h⟩ := Option.bind_eq_some_iff.1 h
    dsimp only at h
    split at h
    · cases h
      exact List.forall_mem_singleton.2 (ih.value hv)
    · obtain ⟨⟨ps', r''⟩, hps, h⟩ := Option.bind_eq_some_iff.1 h
      cases h
      exact List.forall_mem_cons.2 ⟨ih.value hv, ih.pairs hps⟩
    · cases h
  · cases h

end ReadsSorted

/-- All values that are read are in order, by induction on the fuel. -/
theorem readsSorted (fuel : Nat) : ReadsSorted fuel := by
  induction fuel with
  | zero => exact .zero
  | succ fuel ih => exact ⟨ih.readValue, ih.readItems, ih.readPairs⟩

/-! ## Texts -/

/-- A pair in a line has a sorted value. -/
def Line.Sorted : Line → Prop
  | .pair _ value => value.sorted = value
  | .header .. => True

/-- A line has no values but those that are read in it. -/
theorem sorted_readLine {fuel : Nat} {ts rest : List Token} {line : Line}
    (h : readLine fuel ts = some (line, rest)) : line.Sorted := by
  unfold readLine at h
  split at h
  · obtain ⟨⟨path, r⟩, -, h⟩ := Option.bind_eq_some_iff.1 h
    split at h
    · obtain ⟨_, -, h⟩ := Option.bind_eq_some_iff.1 h
      cases h
      trivial
    · cases h
  · obtain ⟨⟨path, r⟩, -, h⟩ := Option.bind_eq_some_iff.1 h
    split at h
    · obtain ⟨_, -, h⟩ := Option.bind_eq_some_iff.1 h
      cases h
      trivial
    · cases h
  · obtain ⟨⟨key, r⟩, -, h⟩ := Option.bind_eq_some_iff.1 h
    split at h
    · obtain ⟨⟨v, r'⟩, hv, h⟩ := Option.bind_eq_some_iff.1 h
      obtain ⟨_, -, h⟩ := Option.bind_eq_some_iff.1 h
      cases h
      exact (readsSorted fuel).value hv
    · cases h

theorem sorted_readLines {fuel : Nat} {ts : List Token} {lines : List Line}
    (h : readLines fuel ts = some lines) : ∀ line ∈ lines, line.Sorted := by
  induction fuel generalizing ts lines with
  | zero => cases h
  | succ fuel ih =>
    rw [readLines] at h
    split at h
    · cases h
      exact nofun
    · obtain ⟨⟨line, r⟩, hline, h⟩ := Option.bind_eq_some_iff.1 h
      obtain ⟨lines', hlines, h⟩ := Option.bind_eq_some_iff.1 h
      cases h
      exact List.forall_mem_cons.2 ⟨sorted_readLine hline, ih hlines⟩

/-- To part the lines at their headers leaves the values as they are. -/
theorem sorted_sections {lines : List Line} (h : ∀ line ∈ lines, line.Sorted) :
    (∀ p ∈ (sections lines).1, p.2.sorted = p.2) ∧
      ∀ s ∈ (sections lines).2, ∀ p ∈ s.pairs, p.2.sorted = p.2 := by
  induction lines with
  | nil => exact ⟨nofun, nofun⟩
  | cons line lines ih =>
    obtain ⟨hline, hlines⟩ := List.forall_mem_cons.1 h
    obtain ⟨hpairs, hsections⟩ := ih hlines
    cases line with
    | pair key value => exact ⟨List.forall_mem_cons.2 ⟨hline, hpairs⟩, hsections⟩
    | header path several => exact ⟨nofun, List.forall_mem_cons.2 ⟨hpairs, hsections⟩⟩

/-- The value of a document has the members of all its objects in order. -/
theorem sorted_ofText? {s : String} {v : Json} (h : ofText? s = some v) : v.sorted = v := by
  obtain ⟨ts, -, h⟩ := Option.bind_eq_some_iff.1 h
  obtain ⟨lines, hlines, h⟩ := Option.bind_eq_some_iff.1 h
  obtain ⟨hpairs, hsections⟩ := sorted_sections (sorted_readLines hlines)
  exact sorted_tableOf? hpairs hsections h

end Toml
end CampaignRouting
