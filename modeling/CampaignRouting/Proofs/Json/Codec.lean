import CampaignRouting.Proofs.Json.Reading

/-!
# Codecs that read back what they write

`c.Restores k a` says that what `c` writes of `a` is read as `a`, from a text or from a value, with
the members of its objects in any order, wherever `k` levels may be opened. `c.Gives k a` says that
`a` can come out of a tree of at most `k` levels. Both go through the codecs of containers item by
item.
-/

namespace CampaignRouting.Json.Codec

variable {α β : Type} {c : Codec α} {a : α} {k l : Nat}

/-! ## Restoring -/

/-- The value is written so that it is read back, and nests no deeper than `k` levels. -/
structure Restores (c : Codec α) (k : Nat) (a : α) : Prop where
  fits : (c.write a).Fits k
  legible : ∀ n ∈ (c.write a).numbers, n.ReadsBack
  read {source : Source} {f : Json → Json} (hsource : source.Has k) (hf : Rearrangement f) :
    c.read source (.ofJson (f (c.write a))) = .ok a

/-- All but `null` is read as the value itself is. -/
theorem option_read_ofJson {source : Source} {v : Json} (h : v ≠ .null) :
    c.option.read source (.ofJson v) = (c.read source (.ofJson v)).map .some := by
  cases v with
  | null => exact absurd rfl h
  | bool b => cases b <;> rfl
  | number | string | array | object => rfl

/-- Entries are read into a map one after the other. -/
theorem readEntries_ofMembers (c : Codec α) (source : Source) {l : List (String × α)}
    (value : String × α → Json)
    (h : ∀ e ∈ l, c.read source (.ofJson (value e)) = .ok e.2) (m : SortedMap α) :
    readEntries c source (Tree.ofMembers (l.map fun e => (e.1, value e))) m =
      .ok (l.foldl (fun m e => m.insert e.1 e.2) m) := by
  induction l generalizing m with
  | nil => rfl
  | cons e l ih =>
    obtain ⟨he, hl⟩ := List.forall_mem_cons.1 h
    simp only [List.map_cons, Tree.ofMembers, readEntries, Quoted.read, Quoted.ofString,
      Except.mapError, he, bind, Except.bind]
    exact ih hl _

namespace Restores

theorem mono (h : c.Restores k a) (hkl : k ≤ l) : c.Restores l a where
  fits := h.fits.mono hkl
  legible := h.legible
  read hsource hf := h.read (hsource.mono hkl) hf

/-- A value that is restored is read back from its text, with whatever blanks it is printed. -/
theorem ofText_print (h : c.Restores maxDepth a) {s : Spacing} (hs : s.Blank) :
    c.ofText (String.ofList ((c.write a).print s 0)) = .ok a := by
  have hread : c.read (.text maxDepth) (.ofJson (c.write a)) = .ok a := h.read le_rfl .id
  simp only [ofText, Tree.ofText_print hs _ h.legible, hread]
  rfl

theorem ofText_toText (h : c.Restores maxDepth a) : c.ofText (c.toText a) = .ok a :=
  h.ofText_print Spacing.blank_compact

theorem ofText_toPrettyText (h : c.Restores maxDepth a) : c.ofText (c.toPrettyText a) = .ok a :=
  h.ofText_print Spacing.blank_indented

/-- A value is read back from its text also where the members of its objects are sorted first. -/
theorem ofText_sorted (h : c.Restores maxDepth a) : c.ofText (c.write a).sorted.pretty = .ok a := by
  have hlegible : ∀ n ∈ (c.write a).sorted.numbers, n.ReadsBack := fun n hn =>
    h.legible n (numbers_sorted_subset _ hn)
  have hread : c.read (.text maxDepth) (.ofJson (c.write a).sorted) = .ok a :=
    h.read le_rfl .sorted
  simp only [ofText, pretty, Tree.ofText_print Spacing.blank_indented _ hlegible, hread]
  rfl

/-- The order of members makes no difference to reading. -/
theorem ofValue_sorted (h : c.Restores k a) : c.ofValue (c.write a).sorted = .ok a :=
  h.read trivial .sorted

/-! ### Scalars -/

theorem string (s : String) : Codec.string.Restores k s where
  fits := .string s
  legible := nofun
  read _ hf := by
    rw [Codec.string, hf.string]
    rfl

theorem bool (b : Bool) : Codec.bool.Restores k b where
  fits := .bool b
  legible := nofun
  read _ hf := by
    rw [Codec.bool, hf.bool]
    cases b <;> rfl

theorem number_singleton {n : Number} (h : n.ReadsBack) :
    ∀ m ∈ (Json.number n).numbers, m.ReadsBack :=
  List.forall_mem_singleton.2 h

theorem float {x : Float} (h : (Number.float x).ReadsBack) : Codec.float.Restores k x := by
  have hwrite : Codec.float.write x = .number (.float x) := if_pos h.isFinite
  exact {
    fits := hwrite ▸ .number _
    legible := hwrite ▸ number_singleton h
    read := fun _ hf => by
      rw [hwrite, hf.number]
      rfl }

theorem natural {type : String} {bound n : Nat} (hn : n < bound) (hbound : bound ≤ UInt64.size) :
    (Codec.natural type bound).Restores k n where
  fits := .number _
  legible := number_singleton (.integer ⟨by omega, by omega⟩)
  read {_ f} _ hf := by
    have hwrite : f ((Codec.natural type bound).write n) = .number (.integer n) := hf.number _
    rw [hwrite]
    simp [Tree.ofJson, Codec.natural, hn]

/-- A value that is in order is restored as it is. -/
theorem json {v : Json} (hfits : v.Fits k) (hsorted : v.sorted = v)
    (hlegible : ∀ n ∈ v.numbers, n.ReadsBack) : Codec.json.Restores k v where
  fits := hfits
  legible := hlegible
  read hsource hf := (Tree.toJson_rearranged hf hfits hsource).trans (congrArg _ hsorted)

/-- What is written, sorted, may itself be kept and read as any value. -/
theorem sorted_json (h : c.Restores k a) : Codec.json.Restores k (c.write a).sorted :=
  .json h.fits.sorted (sorted_sorted _) fun n hn => h.legible n (numbers_sorted_subset _ hn)

/-- A value is restored in another form, if the form can be undone. -/
theorem map {f : α → β} {g : β → α} {b : β} (h : c.Restores k (g b)) (hinverse : f (g b) = b) :
    (c.map f g).Restores k b where
  fits := h.fits
  legible := h.legible
  read hsource hf := by
    simp only [Codec.map, h.read hsource hf, Except.map, hinverse]

theorem refine {f : α → Except Error β} {g : β → α} {b : β} (h : c.Restores k (g b))
    (hinverse : f (g b) = .ok b) : (c.refine f g).Restores k b where
  fits := h.fits
  legible := h.legible
  read hsource hf := by
    simp only [Codec.refine, h.read hsource hf, bind, Except.bind, hinverse]

theorem uint8 (n : UInt8) : Codec.uint8.Restores k n :=
  .map (.natural n.toNat_lt (by decide)) UInt8.ofNat_toNat

theorem uint32 (n : UInt32) : Codec.uint32.Restores k n :=
  .map (.natural n.toNat_lt (by decide)) UInt32.ofNat_toNat

theorem uint64 (n : UInt64) : Codec.uint64.Restores k n :=
  .map (.natural n.toNat_lt le_rfl) UInt64.ofNat_toNat

/-- A value is restored by its name if no value before it has the same. -/
theorem enum {all : List α} {name : α → String} (h : all.find? (name · = name a) = some a) :
    (Codec.enum all name).Restores k a where
  fits := .string _
  legible := nofun
  read _ hf := by
    have hvariant : variant all name (name a) = .ok a := by rw [variant, h]
    rw [Codec.enum, hf.string]
    exact hvariant

/-! ### Containers -/

/-- Where `null` is no value of its own, it stands for none. -/
theorem option {o : Option α} (h : ∀ a, o = some a → c.Restores k a)
    (hnull : ∀ source a, c.read source (.scalar (.word .null)) ≠ .ok a) :
    c.option.Restores k o := by
  cases o with
  | none =>
    exact {
      fits := .null
      legible := nofun
      read := fun _ hf => by
        rw [Codec.option, hf.null]
        rfl }
  | some a =>
    have ha := h a rfl
    refine ⟨ha.fits, ha.legible, fun {source f} hsource hf => ?_⟩
    have hread := ha.read hsource hf
    have hne : f (c.write a) ≠ .null := by
      intro hw
      rw [hw] at hread
      exact hnull source a hread
    exact (option_read_ofJson hne).trans (congrArg _ hread)

theorem optionString (o : Option String) : Codec.string.option.Restores k o :=
  .option (fun s _ => .string s) nofun

/-- A list is restored item by item, one level further down. -/
theorem list {as : List α} (h : ∀ a ∈ as, c.Restores k a) : c.list.Restores (k + 1) as where
  fits := .array (List.forall_mem_map.2 fun a ha => (h a ha).fits)
  legible n hn := by
    simp only [Codec.list, numbers_array, List.flatMap_map] at hn
    obtain ⟨a, ha, hn⟩ := List.mem_flatMap.1 hn
    exact (h a ha).legible n hn
  read {source f} hsource hf := by
    obtain ⟨inner, henter, hinner⟩ := hsource.enter
    have hwrite : f (c.list.write as) = .array (as.map fun a => f (c.write a)) :=
      (hf.array _).trans (congrArg _ List.map_map)
    have hitems : ((as.map fun a => f (c.write a)).map Tree.ofJson).mapM (c.read inner) =
        .ok as := by
      rw [List.map_map, List.mapM_map]
      exact (mapM_eq_ok fun a ha => (h a ha).read hinner hf).trans (congrArg _ (List.map_id _))
    rw [hwrite, Tree.ofJson, Tree.ofItems_eq_map]
    simp only [Codec.list, henter, bind, Except.bind, hitems]
    rfl

/-- A map is restored entry by entry; its keys ascend already. -/
theorem sortedMap {m : SortedMap α} (h : ∀ e ∈ m.entries, c.Restores k e.2) :
    c.sortedMap.Restores (k + 1) m where
  fits := by
    refine .object ?_ (List.forall_mem_map.2 fun e he => (h e he).fits)
    rw [List.map_map]
    exact m.ascending.nodup
  legible n hn := by
    simp only [Codec.sortedMap, numbers_object, List.flatMap_map] at hn
    obtain ⟨e, he, hn⟩ := List.mem_flatMap.1 hn
    exact (h e he).legible n hn
  read {source f} hsource hf := by
    obtain ⟨inner, henter, hinner⟩ := hsource.enter
    obtain ⟨l, hperm, hobject⟩ := hf.object_map (fun e => c.write e.2) m.ascending.nodup
    have hwrite : f (c.sortedMap.write m) = .object (l.map fun e => (e.1, f (c.write e.2))) :=
      hobject
    have hentries := readEntries_ofMembers c inner (fun e : String × α => f (c.write e.2))
      (fun e he => (h e (hperm.subset he)).read hinner hf) ∅
    have hm : l.foldl (fun m e => m.insert e.1 e.2) ∅ = m := SortedMap.ofList_perm hperm
    rw [hwrite, Tree.ofJson]
    simp only [Codec.sortedMap, henter, bind, Except.bind, hentries, hm]
    rfl

end Restores

/-! ## Giving -/

/-- An entry has been read from a member, or was there before. -/
theorem readEntries_entries {source : Source} {members : List (Quoted × Tree)}
    {m m' : SortedMap α} (h : readEntries c source members m = .ok m') :
    ∀ e ∈ m'.entries, (∃ member ∈ members, c.read source member.2 = .ok e.2) ∨ e ∈ m.entries := by
  induction members generalizing m with
  | nil =>
    cases h
    exact fun e he => .inr he
  | cons member members ih =>
    obtain ⟨key, _, h⟩ := bind_eq_ok_iff.1 h
    obtain ⟨a, hread, h⟩ := bind_eq_ok_iff.1 h
    intro e he
    rcases ih h e he with ⟨member', hmember', hread'⟩ | he
    · exact .inl ⟨member', .tail _ hmember', hread'⟩
    · refine (mem_insertEntry he).imp (fun heq => ?_) id
      exact heq ▸ ⟨member, .head _, hread⟩

/-- Reading a tree of at most `k` levels can give the value. -/
def Gives (c : Codec α) (k : Nat) (a : α) : Prop :=
  ∃ source t, Tree.Readable source k t ∧ c.read source t = .ok a

namespace Gives

/-- What is read from a text nests no deeper than a text may. -/
theorem of_ofText {s : String} (h : c.ofText s = .ok a) : c.Gives maxDepth a :=
  ⟨_, _, .text (Tree.sound_ofText s), (ofText_eq_ok_iff.1 h).1⟩

theorem of_ofValue {v : Json} (hv : v.Canonical k) (h : c.ofValue v = .ok a) : c.Gives k a :=
  ⟨_, _, .value hv, h⟩

theorem json {v : Json} (h : Codec.json.Gives k v) : v.Canonical k := by
  obtain ⟨source, t, hreadable, hread⟩ := h
  exact hreadable.canonical hread

theorem option (h : c.option.Gives k (some a)) : c.Gives k a := by
  obtain ⟨source, t, hreadable, hread⟩ := h
  refine ⟨source, t, hreadable, ?_⟩
  simp only [Codec.option] at hread
  split at hread
  · cases hread
  · cases hread
  · obtain ⟨a', hread, ha⟩ := map_eq_ok_iff.1 hread
    cases ha
    exact hread

theorem list {as : List α} (h : c.list.Gives k as) : ∀ a ∈ as, c.Gives (k - 1) a := by
  obtain ⟨source, t, hreadable, hread⟩ := h
  simp only [Codec.list] at hread
  split at hread
  · next items close =>
    obtain ⟨inner, henter, hread⟩ := bind_eq_ok_iff.1 hread
    obtain ⟨as', hitems, hread⟩ := bind_eq_ok_iff.1 hread
    obtain ⟨_, -, hread⟩ := bind_eq_ok_iff.1 hread
    cases hread
    obtain ⟨j, rfl, hinner⟩ := hreadable.items henter
    intro a ha
    obtain ⟨t, ht, hread⟩ := exists_of_mapM_eq_ok hitems a ha
    exact ⟨inner, t, hinner t ht, hread⟩
  · cases hread

theorem sortedMap {m : SortedMap α} (h : c.sortedMap.Gives k m) :
    ∀ e ∈ m.entries, c.Gives (k - 1) e.2 := by
  obtain ⟨source, t, hreadable, hread⟩ := h
  simp only [Codec.sortedMap] at hread
  split at hread
  · next members close =>
    obtain ⟨inner, henter, hread⟩ := bind_eq_ok_iff.1 hread
    obtain ⟨m', hentries, hread⟩ := bind_eq_ok_iff.1 hread
    obtain ⟨_, -, hread⟩ := bind_eq_ok_iff.1 hread
    cases hread
    obtain ⟨j, rfl, hinner⟩ := hreadable.members henter
    intro e he
    rcases readEntries_entries hentries e he with ⟨member, hmember, hread⟩ | he
    · exact ⟨inner, member.2, hinner member hmember, hread⟩
    · cases he
  · cases hread

end Gives
end CampaignRouting.Json.Codec
