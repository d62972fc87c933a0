import CampaignRouting.Proofs.Publish.Keys
import Mathlib.Data.List.DropRight

/-!
# Hosts as they are written in keys

A host is normal (`NormalHost`) if it neither starts nor ends in a blank, does not end in a dot and
has no capital letter, and these are the hosts that stay as they are (`normalHost_eq_self_iff`).
Blanks are taken off a host before the dots at its end are, so what `normalHost` gives is normal
unless a blank stood in front of those dots (`Text.DotsBehindBlank`). That host is spelled in two
ways then, under two keys (`normalHost_canonical_iff`).
-/

namespace CampaignRouting

namespace Text

variable {p : Char → Bool} {cs : List Char}

theorem dropWhile_eq_self_iff : cs.dropWhile p = cs ↔ ∀ c ∈ cs.head?, p c = false := by
  cases cs with
  | nil => simp
  | cons c cs =>
    cases h : p c with
    | false => simp [h]
    | true =>
      have hlength := (List.dropWhile_sublist p (l := cs)).length_le
      simp only [List.dropWhile_cons_of_pos h, List.head?_cons, Option.mem_some_iff, forall_eq', h,
        Bool.true_eq_false, iff_false]
      intro heq
      rw [heq, List.length_cons] at hlength
      omega

theorem dropEndWhile_eq_self_iff : dropEndWhile p cs = cs ↔ ∀ c ∈ cs.getLast?, p c = false := by
  rw [dropEndWhile, List.reverse_eq_iff, dropWhile_eq_self_iff, List.head?_reverse]

theorem dropEndWhile_isPrefix : dropEndWhile p cs <+: cs := List.rdropWhile_prefix p cs

theorem eq_false_of_mem_getLast?_dropEndWhile {c : Char} (h : c ∈ (dropEndWhile p cs).getLast?) :
    p c = false :=
  dropEndWhile_eq_self_iff.1 (List.rdropWhile_idempotent p cs) c h

/-- What is dropped at the end satisfies `p`. -/
theorem exists_append_of_dropEndWhile (p : Char → Bool) (cs : List Char) :
    ∃ tail, cs = dropEndWhile p cs ++ tail ∧ ∀ c ∈ tail, p c :=
  ⟨cs.rtakeWhile p, List.rdropWhile_append_rtakeWhile.symm, fun _ => List.mem_rtakeWhile_imp⟩

theorem trim_sublist (cs : List Char) : (trim cs).Sublist cs :=
  dropEndWhile_isPrefix.sublist.trans (List.dropWhile_sublist isBlank)

theorem mem_head?_of_isPrefix {cs' : List Char} (h : cs <+: cs') {c : Char} (hc : c ∈ cs.head?) :
    c ∈ cs'.head? := by
  obtain ⟨tail, rfl⟩ := h
  rw [List.head?_append, Option.mem_def.1 hc, Option.some_or]
  rfl

theorem isBlank_eq_false_of_mem_head?_trim {c : Char} (h : c ∈ (trim cs).head?) :
    isBlank c = false :=
  dropWhile_eq_self_iff.1 (List.dropWhile_idempotent isBlank cs) c
    (mem_head?_of_isPrefix dropEndWhile_isPrefix h)

/-- A text is trimmed exactly if neither end is blank. -/
theorem trim_eq_self_iff : trim cs = cs ↔
    (∀ c ∈ cs.head?, isBlank c = false) ∧ ∀ c ∈ cs.getLast?, isBlank c = false := by
  constructor
  · intro h
    have hfront : cs.dropWhile isBlank = cs := by
      refine (List.dropWhile_suffix isBlank).eq_of_length_le ?_
      calc cs.length = (trim cs).length := by rw [h]
        _ ≤ (cs.dropWhile isBlank).length := dropEndWhile_isPrefix.length_le
    rw [trim, hfront] at h
    exact ⟨dropWhile_eq_self_iff.1 hfront, dropEndWhile_eq_self_iff.1 h⟩
  · rintro ⟨hfront, hend⟩
    rw [trim, dropWhile_eq_self_iff.2 hfront, dropEndWhile_eq_self_iff.2 hend]

/-- Without the blanks around it, a text ends in dots, and a blank stands in front of them. -/
def DotsBehindBlank (cs : List Char) : Prop :=
  ∃ stem c n, isBlank c ∧ trim cs = stem ++ c :: List.replicate (n + 1) '.'

/-- A blank is at the end once the dots are dropped only if it was in front of dots. -/
theorem exists_blank_end_iff :
    (∃ c ∈ (dropEndWhile (· = '.') (trim cs)).getLast?, isBlank c) ↔ DotsBehindBlank cs := by
  obtain ⟨tail, htail, hdots⟩ := exists_append_of_dropEndWhile (· = '.') (trim cs)
  constructor
  · rintro ⟨c, hc, hblank⟩
    obtain ⟨stem, hstem⟩ := List.getLast?_eq_some_iff.1 hc
    have hreplicate : tail = List.replicate tail.length '.' :=
      List.eq_replicate_iff.2 ⟨rfl, by simpa using hdots⟩
    cases hlength : tail.length with
    | zero =>
      rw [List.length_eq_zero_iff.1 hlength, List.append_nil] at htail
      rw [← htail] at hc
      have hnot : isBlank c = false := eq_false_of_mem_getLast?_dropEndWhile hc
      rw [hblank] at hnot
      cases hnot
    | succ n =>
      refine ⟨stem, c, n, hblank, ?_⟩
      rw [htail, hstem, hreplicate, hlength, List.append_assoc, List.singleton_append]
  · rintro ⟨stem, c, n, hblank, htrim⟩
    have hc : c ≠ '.' := by
      rintro rfl
      exact absurd hblank (by decide)
    refine ⟨c, ?_, hblank⟩
    -- the blank stops the dropping of dots, whatever stands in front of it
    have hdrop : dropEndWhile (· = '.') (stem ++ c :: List.replicate (n + 1) '.') =
        stem ++ [c] := by
      simp [dropEndWhile, hc]
    rw [htrim, hdrop]
    exact List.getLast?_concat

end Text

/-! ## Letters -/

/-- The character is an ASCII capital letter. -/
def IsCapital (c : Char) : Prop := 'A' ≤ c ∧ c ≤ 'Z'

variable {c : Char} {host : String}

theorem isCapital_iff : IsCapital c ↔ 65 ≤ c.toNat ∧ c.toNat ≤ 90 := by
  simp only [IsCapital, Char.le_def, UInt32.le_iff_toNat_le]
  rfl

theorem toNat_lowerAscii (h : IsCapital c) : (lowerAscii c).toNat = c.toNat + 32 := by
  have hcode := isCapital_iff.1 h
  have hvalid : (c.toNat + 32).isValidChar := .inl (by omega)
  have hlower : lowerAscii c = Char.ofNatAux (c.toNat + 32) hvalid :=
    (if_pos h).trans (dif_pos hvalid)
  rw [hlower]
  rfl

theorem lowerAscii_eq_self_iff : lowerAscii c = c ↔ ¬IsCapital c := by
  refine ⟨fun h hcapital => ?_, fun h => if_neg h⟩
  have hcode := toNat_lowerAscii hcapital
  rw [h] at hcode
  omega

theorem not_isCapital_lowerAscii (c : Char) : ¬IsCapital (lowerAscii c) := by
  by_cases h : IsCapital c
  · rw [isCapital_iff, toNat_lowerAscii h]
    have := isCapital_iff.1 h
    omega
  · rwa [lowerAscii_eq_self_iff.2 h]

/-- Small letters are no more blank than capital ones. -/
theorem isBlank_lowerAscii (c : Char) : Text.isBlank (lowerAscii c) = Text.isBlank c := by
  by_cases h : IsCapital c
  · have hcode := isCapital_iff.1 h
    rw [Bool.eq_iff_iff]
    simp [Text.isBlank, Text.inRanges, Text.blankRanges, toNat_lowerAscii h]
    omega
  · rw [lowerAscii_eq_self_iff.2 h]

theorem lowerAscii_eq_dot_iff : lowerAscii c = '.' ↔ c = '.' := by
  by_cases h : IsCapital c
  · have hcode := isCapital_iff.1 h
    rw [← Char.toNat_inj, ← Char.toNat_inj, toNat_lowerAscii h, show '.'.toNat = 46 from rfl]
    omega
  · rw [lowerAscii_eq_self_iff.2 h]

/-! ## Normal hosts -/

/-- A host that is written in the one way that its key should have. -/
structure NormalHost (host : String) : Prop where
  start : ∀ c ∈ host.toList.head?, ¬Text.isBlank c
  noBlankEnd : ∀ c ∈ host.toList.getLast?, ¬Text.isBlank c
  noDotEnd : ∀ c ∈ host.toList.getLast?, c ≠ '.'
  noCapital : ∀ c ∈ host.toList, ¬IsCapital c

theorem toList_normalHost (host : String) : (normalHost host).toList =
    (Text.dropEndWhile (· = '.') (Text.trim host.toList)).map lowerAscii :=
  String.toList_ofList

/-- No host in normal form begins with a blank. -/
theorem start_normalHost (host : String) :
    ∀ c ∈ (normalHost host).toList.head?, ¬Text.isBlank c := by
  rw [toList_normalHost, List.head?_map]
  intro c hc
  obtain ⟨d, hd, rfl⟩ := Option.map_eq_some_iff.1 hc
  rw [isBlank_lowerAscii, Text.isBlank_eq_false_of_mem_head?_trim
    (Text.mem_head?_of_isPrefix Text.dropEndWhile_isPrefix hd)]
  exact Bool.false_ne_true

/-- No host in normal form ends in a dot. -/
theorem noDotEnd_normalHost (host : String) :
    ∀ c ∈ (normalHost host).toList.getLast?, c ≠ '.' := by
  rw [toList_normalHost, List.getLast?_map]
  intro c hc
  obtain ⟨d, hd, rfl⟩ := Option.map_eq_some_iff.1 hc
  rw [Ne, lowerAscii_eq_dot_iff]
  simpa using Text.eq_false_of_mem_getLast?_dropEndWhile hd

theorem noCapital_normalHost (host : String) : ∀ c ∈ (normalHost host).toList, ¬IsCapital c := by
  rw [toList_normalHost]
  intro c hc
  obtain ⟨d, -, rfl⟩ := List.mem_map.1 hc
  exact not_isCapital_lowerAscii d

/-- A blank is left at the end exactly if dots stood behind it. -/
theorem exists_blank_end_normalHost_iff (host : String) :
    (∃ c ∈ (normalHost host).toList.getLast?, Text.isBlank c) ↔
      Text.DotsBehindBlank host.toList := by
  rw [← Text.exists_blank_end_iff, toList_normalHost, List.getLast?_map]
  simp [isBlank_lowerAscii]

/-- The form is normal unless dots stood behind a blank. -/
theorem normalHost_normal_iff (host : String) :
    NormalHost (normalHost host) ↔ ¬Text.DotsBehindBlank host.toList := by
  rw [← exists_blank_end_normalHost_iff]
  refine ⟨fun h ⟨c, hc, hblank⟩ => h.noBlankEnd c hc hblank, fun h => ?_⟩
  exact ⟨start_normalHost host, fun c hc hblank => h ⟨c, hc, hblank⟩, noDotEnd_normalHost host,
    noCapital_normalHost host⟩

/-- Normal hosts are those that stay as they are. -/
theorem normalHost_eq_self_iff : normalHost host = host ↔ NormalHost host := by
  constructor
  · intro h
    have htrim : Text.trim host.toList = host.toList := by
      refine (Text.trim_sublist host.toList).eq_of_length_le ?_
      calc host.toList.length = (normalHost host).toList.length := by rw [h]
        _ ≤ (Text.trim host.toList).length := by
          rw [toList_normalHost, List.length_map]
          exact Text.dropEndWhile_isPrefix.length_le
    have hend := (Text.trim_eq_self_iff.1 htrim).2
    exact ⟨h ▸ start_normalHost host, by simpa using hend, h ▸ noDotEnd_normalHost host,
      h ▸ noCapital_normalHost host⟩
  · intro h
    have htrim : Text.trim host.toList = host.toList :=
      Text.trim_eq_self_iff.2 ⟨by simpa using h.start, by simpa using h.noBlankEnd⟩
    have hdots : Text.dropEndWhile (· = '.') host.toList = host.toList :=
      Text.dropEndWhile_eq_self_iff.2 (by simpa using h.noDotEnd)
    have hlower : host.toList.map lowerAscii = host.toList :=
      (List.map_congr_left fun c hc => lowerAscii_eq_self_iff.2 (h.noCapital c hc)).trans
        (List.map_id _)
    rw [← String.toList_inj, toList_normalHost, htrim, hdots, hlower]

/-- To take the form twice changes nothing, but in that one case. -/
theorem normalHost_normalHost_iff (host : String) :
    normalHost (normalHost host) = normalHost host ↔ ¬Text.DotsBehindBlank host.toList :=
  normalHost_eq_self_iff.trans (normalHost_normal_iff host)

/-! ## Keys of hosts -/

/-- A write whose key is taken is not due. -/
theorem distinctWrites_append_cons {taken : List String} {before after : List Write} {w : Write}
    (h : w.key ∈ taken ∨ w.key ∈ before.map (·.key)) :
    distinctWrites taken (before ++ w :: after) = distinctWrites taken (before ++ after) := by
  induction before generalizing taken with
  | nil =>
    have htaken : w.key ∈ taken := by simpa using h
    rw [List.nil_append, distinctWrites, if_pos htaken, List.nil_append]
  | cons v before ih =>
    rw [List.map_cons, List.mem_cons] at h
    rw [List.cons_append, distinctWrites, List.cons_append, distinctWrites]
    split
    · rw [ih]
      rcases h with h | h | h
      · exact .inl h
      · exact .inl (h ▸ ‹v.key ∈ taken›)
      · exact .inr h
    · rw [ih]
      rcases h with h | h | h
      · exact .inl (.tail _ h)
      · exact .inl (h ▸ .head _)
      · exact .inr h

namespace PublishConfig

/-- A target that has the key of one before it adds no write. -/
theorem writes_append_cons (config : PublishConfig) {before : List Target} (after : List Target)
    {t u : Target} (hmem : u ∈ before) (hkey : t.key config = u.key config) :
    config.writes (before ++ t :: after) = config.writes (before ++ after) := by
  rw [writes, List.map_append, List.map_cons, distinctWrites_append_cons, ← List.map_append, writes]
  rw [List.map_map]
  exact .inr (List.mem_map.2 ⟨u, hmem, hkey.symm⟩)

/-- Two targets are written to once if they share a key. -/
theorem keys_pair (config : PublishConfig) (t u : Target) :
    config.keys [t, u] =
      if t.key config = u.key config then [t.key config] else [t.key config, u.key config] := by
  rw [keys, List.map_cons, List.map_cons, List.map_nil, List.eraseDups_cons]
  split
  · next h => simp [h]
  · next h => simp [Ne.symm h, List.eraseDups_cons]

end PublishConfig

theorem key_customDomain_normalHost_iff (config : PublishConfig) (host : String) :
    (Target.customDomain (normalHost host)).key config = (Target.customDomain host).key config ↔
      ¬Text.DotsBehindBlank host.toList :=
  (Target.key_eq_iff_samePlace config).trans (normalHost_normalHost_iff host)

/-- How far the hosts in keys are canonical. What is written for a host starts with no blank, ends
in no dot and has no capital letter. It ends in a blank, and is not its own normal form, exactly if
a blank stands in front of the dots at the end of the host. Otherwise the host and its normal form
have one key, whatever the prefix, and a target with either that comes behind the other is no write
of its own; in that case they have two. -/
theorem normalHost_canonical_iff (host : String) :
    (∀ c ∈ (normalHost host).toList.head?, ¬Text.isBlank c) ∧
    (∀ c ∈ (normalHost host).toList.getLast?, c ≠ '.') ∧
    (∀ c ∈ (normalHost host).toList, ¬IsCapital c) ∧
    ((∃ c ∈ (normalHost host).toList.getLast?, Text.isBlank c) ↔
      Text.DotsBehindBlank host.toList) ∧
    (normalHost (normalHost host) = normalHost host ↔ ¬Text.DotsBehindBlank host.toList) ∧
    ∀ config : PublishConfig, ∀ t u : Target,
      t = .customDomain host ∧ u = .customDomain (normalHost host) ∨
        t = .customDomain (normalHost host) ∧ u = .customDomain host →
      (¬Text.DotsBehindBlank host.toList →
        t.key config = u.key config ∧
        ∀ before after : List Target, t ∈ before →
          config.writes (before ++ u :: after) = config.writes (before ++ after)) ∧
      (Text.DotsBehindBlank host.toList →
        config.keys [t, u] = [t.key config, u.key config]) := by
  refine ⟨start_normalHost host, noDotEnd_normalHost host, noCapital_normalHost host,
    exists_blank_end_normalHost_iff host, normalHost_normalHost_iff host,
    fun config t u hspell => ?_⟩
  have hkey : t.key config = u.key config ↔ ¬Text.DotsBehindBlank host.toList := by
    rw [← key_customDomain_normalHost_iff config]
    rcases hspell with ⟨rfl, rfl⟩ | ⟨rfl, rfl⟩
    · exact eq_comm
    · exact Iff.rfl
  refine ⟨fun h => ⟨hkey.2 h, fun before after hmem => ?_⟩, fun h => ?_⟩
  · exact config.writes_append_cons after hmem (hkey.2 h).symm
  · rw [PublishConfig.keys_pair, if_neg (mt hkey.1 (not_not_intro h))]

/-- With dots behind a domain only, and with blanks around that, all is as it should be. -/
theorem normalHost_canonical_dots :
    (Target.customDomain " Example.org.. ").key .default = "campaign:domain:example.org" ∧
    PublishConfig.default.writes
        [.customDomain " Example.org.. ", .preview "spring", .customDomain "example.org"] =
      PublishConfig.default.writes [.customDomain " Example.org.. ", .preview "spring"] ∧
    ∃ c ∈ (normalHost "example.org .").toList.getLast?, Text.isBlank c := by
  obtain ⟨-, -, -, -, hfixed, hwrites⟩ := normalHost_canonical_iff " Example.org.. "
  obtain ⟨-, -, -, hblank, -⟩ := normalHost_canonical_iff "example.org ."
  refine ⟨rfl, ?_, hblank.2 ⟨"example.org".toList, ' ', 0, rfl, rfl⟩⟩
  have hspell : normalHost " Example.org.. " = "example.org" := by decide
  have hone := (hwrites .default _ _ (.inl ⟨rfl, rfl⟩)).1 (hfixed.1 (by decide))
  rw [hspell] at hone
  exact hone.2 [.customDomain " Example.org.. ", .preview "spring"] [] (.head _)

/-- A blank in front of the last dot stays, so the host is not normal, and its normal form is
written apart from it. -/
theorem normalHost_not_canonical :
    normalHost "example.org ." = "example.org " ∧
    normalHost (normalHost "example.org .") = "example.org" ∧
    ¬NormalHost (normalHost "example.org .") ∧
    PublishConfig.default.keys
        [.customDomain "example.org .", .customDomain (normalHost "example.org .")] =
      ["campaign:domain:example.org ", "campaign:domain:example.org"] := by
  refine ⟨by decide, by decide, fun h => ?_, by decide⟩
  exact h.noBlankEnd ' ' (by decide) (by decide)

end CampaignRouting
