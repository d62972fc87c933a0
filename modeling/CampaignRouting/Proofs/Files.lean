import CampaignRouting.Files
import CampaignRouting.Proofs.SortedMap

/-!
# Files that are written

A write concerns no file but the one that its path leads to (`get?_writeFrom`). Where it fails,
either all files are as before, or it has broken off in a file that had been opened
(`writeFrom_error`).
-/

namespace CampaignRouting.Files

variable {files files' : Files} {here : Route} {faults : WriteFaults} {path text name : String}

/-- A path leads to a file, or to where one can be made. -/
def Opens (files : Files) (here : Route) (path name : String) : Prop :=
  files.place here path = .ok (.free name) ∨ ∃ old, files.place here path = .ok (.file name old)

theorem Opens.writeFrom_eq (h : files.Opens here path name) :
    files.writeFrom here faults path text = files.fill name text (faults name text) := by
  rcases h with h | ⟨old, h⟩ <;> rw [writeFrom, h]

/-- A path that leads to no file is refused at once. -/
theorem opens_or_refused (files : Files) (here : Route) (faults : WriteFaults)
    (path text : String) :
    (∃ name, files.Opens here path name) ∨
      ∃ e, files.writeFrom here faults path text = (.error e, files) := by
  unfold writeFrom
  cases h : files.place here path with
  | error e => exact .inr ⟨e, rfl⟩
  | ok place =>
    cases place with
    | file name old => exact .inl ⟨name, .inr ⟨old, h⟩⟩
    | free name => exact .inl ⟨name, .inl h⟩
    | directory => exact .inr ⟨_, rfl⟩
    | noDirectory => exact .inr ⟨_, rfl⟩

theorem get?_fill {fault : Option WriteFault} {k : String} (hk : k ≠ name) :
    (files.fill name text fault).2.get? k = files.get? k := by
  match fault with
  | none => exact (SortedMap.get?_insert ..).trans (if_neg hk)
  | some (.refused e) => rfl
  | some (.brokenOff e length) => exact (SortedMap.get?_insert ..).trans (if_neg hk)

/-- Only the file that the path leads to is written. -/
theorem get?_writeFrom {k : String} (hk : ¬files.Opens here path k) :
    (files.writeFrom here faults path text).2.get? k = files.get? k := by
  rcases opens_or_refused files here faults path text with ⟨name, hopens⟩ | ⟨e, hrefused⟩
  · rw [hopens.writeFrom_eq]
    exact get?_fill fun hname => hk (hname ▸ hopens)
  · rw [hrefused]

/-- A write that fails has changed nothing, unless it has broken off. -/
theorem writeFrom_error {e : FileError}
    (h : files.writeFrom here faults path text = (.error e, files')) :
    files' = files ∨ ∃ name length, files.Opens here path name ∧
      faults name text = some (.brokenOff e length) ∧
      files' = files.insert name (String.ofList (text.toList.take length)) := by
  rcases opens_or_refused files here faults path text with ⟨name, hopens⟩ | ⟨e', hrefused⟩
  · rw [hopens.writeFrom_eq] at h
    match hfault : faults name text with
    | none =>
      rw [hfault, fill] at h
      cases h
    | some (.refused e') =>
      rw [hfault, fill] at h
      cases h
      exact .inl rfl
    | some (.brokenOff e' length) =>
      rw [hfault, fill] at h
      cases h
      exact .inr ⟨name, length, hopens, hfault, rfl⟩
  · rw [hrefused] at h
    cases h
    exact .inl rfl

end CampaignRouting.Files
