import CampaignRouting.Proofs.Json.Record
import CampaignRouting.Proofs.Validation.Accounts

/-!
# The round trip of reports

A report is read back from its text (`Report.ofText_toText_ofFindings`). The one thing to show is
that a finding and its node, which share one object, come apart again: no field of the one goes by a
name of the other, so reading the node's fields leaves just the members of the finding, in whatever
order they stood (`NodeFinding.readNode_found`).
-/

namespace CampaignRouting

open Json

/-! ## Findings -/

theorem Severity.codec_restores {k : Nat} (s : Severity) : Severity.codec.Restores k s :=
  .enum (by cases s <;> rfl)

theorem NodeType.codec_restores {k : Nat} (t : NodeType) : NodeType.codec.Restores k t :=
  .enum (by cases t <;> rfl)

namespace Finding

/-- The values of the fields of a finding. -/
abbrev parts (f : Finding) :
    String × Bool × String × Severity × Option String × Option UInt32 × Unit :=
  (f.id, f.isValid, f.message, f.severity, f.field, f.priority, ())

theorem namesApart_fields : fields.NamesApart := by decide

theorem fields_restores (f : Finding) : fields.Restores 0 f.parts :=
  ⟨.always rfl (.string _), .always rfl (.bool _), .always rfl (.string _),
    .always rfl (Severity.codec_restores _), .of_hidden rfl (.optionString _),
    .of_hidden rfl (.option (fun _ _ => .uint32 _) nofun), trivial⟩

theorem codec_restores (f : Finding) : codec.Restores 1 f :=
  .record namesApart_fields rfl f.fields_restores

/-- A finding is read from its members in any order, out of values that were set aside. -/
theorem read_buffered_of_perm (f : Finding) {g : Json → Json} (hg : Rearrangement g)
    {ms : List (String × Json)} (hperm : ms.Perm (fields.write f.parts)) :
    codec.read .buffered (.object (Tree.ofMembers (ms.map fun m => (m.1, g m.2))) .bracket) =
      .ok f := by
  have hsource : Source.buffered.Has 1 := trivial
  exact Codec.read_record_of_perm namesApart_fields f.fields_restores hsource hg hperm

end Finding

theorem NodeResult.codec_restores (r : NodeResult) : NodeResult.codec.Restores 3 r := by
  have hfindings : Finding.codec.list.Restores 2 r.findings := .list fun f _ => f.codec_restores
  exact .record (by decide) rfl
    ⟨.always rfl (.string _), .always rfl (NodeType.codec_restores _), .always rfl (.string _),
      .always rfl hfindings, trivial⟩

/-! ## Findings with their nodes -/

namespace NodeFinding

/-- The values of the fields of the node. -/
abbrev nodeParts (f : NodeFinding) : String × NodeType × String × Unit :=
  (f.nodeId, f.nodeType, f.nodeTitle, ())

theorem namesApart_nodeFields : nodeFields.NamesApart := by decide

theorem nodeFields_restores (f : NodeFinding) : nodeFields.Restores 0 f.nodeParts :=
  ⟨.always rfl (.string _), .always rfl (NodeType.codec_restores _), .always rfl (.string _),
    trivial⟩

/-- No field of a node is named as one of a finding. -/
theorem not_knows_of_mem_names {name : String} (h : name ∈ Finding.fields.names) :
    ¬nodeFields.Knows name := by
  simp only [Finding.fields, Fields.names, List.mem_cons, List.not_mem_nil, or_false] at h
  rcases h with rfl | rfl | rfl | rfl | rfl | rfl <;>
    simp [nodeFields, Fields.Knows, Field.AnswersTo, Field.required, Field.hidden, Field.optional,
      Field.withDefault]

/-- The members of the object that holds a finding and its node. -/
abbrev members (f : NodeFinding) : List (String × Json) :=
  nodeFields.write f.nodeParts ++ Finding.fields.write f.finding.parts

variable {f : NodeFinding}

theorem member_cases {m : String × Json} (hm : m ∈ f.members) :
    m ∈ nodeFields.write f.nodeParts ∨ m.1 ∈ Finding.fields.names :=
  (List.mem_append.1 hm).imp id Fields.mem_names_of_mem_write

theorem nodup_members : (f.members.map (·.1)).Nodup := by
  have hnode := (nodeFields.names_write f.nodeParts).nodup namesApart_nodeFields.nodup
  have hfinding := (Finding.fields.names_write f.finding.parts).nodup
    Finding.namesApart_fields.nodup
  rw [List.map_append]
  refine hnode.append hfinding fun name hname hname' => ?_
  refine not_knows_of_mem_names ((Fields.names_write _ _).subset hname') ?_
  exact Fields.knows_of_mem_names ((Fields.names_write _ _).subset hname)

theorem member_restores {m : String × Json} (hm : m ∈ f.members) :
    m.2.Fits 0 ∧ ∀ n ∈ m.2.numbers, n.ReadsBack :=
  (List.mem_append.1 hm).elim (f.nodeFields_restores.member m)
    (f.finding.fields_restores.member m)

/-- The members that do not belong to the node, in order. -/
def others (ms : List (String × Json)) : List (String × Json) :=
  ms.filter (·.1 ∈ Finding.fields.names)

/-- The members that are left for the finding are its own. -/
theorem others_perm {ms : List (String × Json)} (hperm : ms.Perm f.members) :
    (others ms).Perm (Finding.fields.write f.finding.parts) := by
  have hnode : others (nodeFields.write f.nodeParts) = [] := by
    refine List.filter_eq_nil_iff.2 fun m hm hname => ?_
    have hknown := Fields.knows_of_mem_names (Fields.mem_names_of_mem_write hm)
    exact not_knows_of_mem_names (of_decide_eq_true hname) hknown
  have hfinding : others (Finding.fields.write f.finding.parts) =
      Finding.fields.write f.finding.parts :=
    List.filter_eq_self.2 fun m hm => decide_eq_true (Fields.mem_names_of_mem_write hm)
  have hfilter := hperm.filter (·.1 ∈ Finding.fields.names)
  rw [List.filter_append] at hfilter
  rwa [← others, ← others, ← others, hnode, hfinding] at hfilter

/-- Reading finds the fields of the node and sets the members of the finding aside. -/
theorem readNode_found {source : Source} {g : Json → Json} (hg : Rearrangement g)
    (hsource : source.Has 0) {ms : List (String × Json)} (hms : ms ⊆ f.members)
    (names : List String) (hnames : (ms.map (·.1) ++ names).Nodup) :
    readNode source (Tree.ofMembers (ms.map fun m => (m.1, g m.2)))
        (nodeFields.found names f.nodeParts) =
      .ok (nodeFields.found ((ms.map (·.1)).reverse ++ names) f.nodeParts,
        Tree.ofMembers ((others ms).map fun m => (m.1, g m.2))) := by
  induction ms generalizing names with
  | nil => rfl
  | cons m ms ih =>
    obtain ⟨hm, hms⟩ := List.cons_subset.1 hms
    obtain ⟨hnew, hrest⟩ := List.nodup_cons.1 hnames
    have hnames : (ms.map (·.1) ++ m.1 :: names).Nodup := (List.perm_middle.nodup_iff).2 hnames
    have ih := ih hms (m.1 :: names) hnames
    simp only [List.map_cons, List.reverse_cons, List.append_assoc, List.singleton_append]
    by_cases hfinding : m.1 ∈ Finding.fields.names
    · -- The member is checked and set aside; the node's fields are as they were.
      have hunknown := not_knows_of_mem_names hfinding
      have hcheck : (Tree.ofJson (g m.2)).check source = .ok () := by
        rw [Tree.check, Tree.toJson_rearranged hg (member_restores hm).1 hsource]
        rfl
      have hothers : others (m :: ms) = m :: others ms :=
        List.filter_cons_of_pos (decide_eq_true hfinding)
      have hfound := Fields.found_cons_of_not_mem (mt Fields.knows_of_mem_names hunknown) names
        f.nodeParts
      rw [hfound] at ih
      simp only [Tree.ofMembers, readNode, Quoted.read, Quoted.ofString, Except.mapError,
        Fields.readMember?_eq_none_iff.2 hunknown, hcheck, hothers, List.map_cons, bind,
        Except.bind, ih]
      rfl
    · have hnode := (member_cases hm).resolve_right hfinding
      have hmember := Fields.readMember?_found namesApart_nodeFields f.nodeFields_restores hsource
        hg hnode names fun hmem => hnew (List.mem_append_right _ hmem)
      have hothers : others (m :: ms) = others ms :=
        List.filter_cons_of_neg (by simpa using hfinding)
      simp only [Tree.ofMembers, readNode, Quoted.read, Quoted.ofString, Except.mapError, hmember,
        hothers, bind, Except.bind, ih]

theorem codec_restores (f : NodeFinding) : codec.Restores 1 f where
  fits := .object nodup_members fun _ hm => (member_restores hm).1
  legible n hn := by
    obtain ⟨m, hm, hn⟩ := List.mem_flatMap.1 (numbers_object _ ▸ hn)
    exact (member_restores hm).2 n hn
  read {source g} hsource hg := by
    obtain ⟨inner, henter, hinner⟩ := hsource.enter
    obtain ⟨ms, hperm, hobject⟩ := hg.object _ (nodup_members (f := f))
    have hwrite : g (codec.write f) = .object (ms.map fun m => (m.1, g m.2)) := hobject
    have hnode := readNode_found hg hinner hperm.subset []
      (by simpa using (hperm.map _).nodup_iff.2 nodup_members)
    have hcomplete := Fields.complete_found f.nodeFields_restores ((ms.map (·.1)).reverse ++ [])
      fun m hm => by simpa using ⟨m.2, hperm.symm.subset (List.mem_append_left _ hm)⟩
    have hfinding := f.finding.read_buffered_of_perm hg (others_perm hperm)
    rw [hwrite, Tree.ofJson]
    simp only [codec, NodeFinding.read, henter, nodeFields.noneFound_eq f.nodeParts, hnode,
      checkFault, Close.objectFault?, hcomplete, hfinding, bind, Except.bind]
    rfl

end NodeFinding

/-! ## Reports -/

namespace Report

theorem Summary.codec_restores {s : Summary} (herrors : s.errors < UInt64.size)
    (hwarnings : s.warnings < UInt64.size) (hinfo : s.info < UInt64.size)
    (hcritical : s.critical < UInt64.size) : Summary.codec.Restores 1 s :=
  .record (by decide) rfl
    ⟨.always rfl (.natural herrors le_rfl), .always rfl (.natural hwarnings le_rfl),
      .always rfl (.natural hinfo le_rfl), .always rfl (.natural hcritical le_rfl), trivial⟩

theorem BySeverity.codec_restores (b : BySeverity) : BySeverity.codec.Restores 3 b := by
  have hcritical : Finding.codec.list.Restores 2 b.critical := .list fun f _ => f.codec_restores
  have hnodes (fs : List NodeFinding) : NodeFinding.codec.list.Restores 2 fs :=
    .list fun f _ => f.codec_restores
  exact .record (by decide) rfl
    ⟨.always rfl hcritical, .always rfl (hnodes b.errors), .always rfl (hnodes b.warnings),
      .always rfl (hnodes b.info), trivial⟩

/-- A report is restored if its counts fit. -/
theorem codec_restores {r : Report} (hsummary : Summary.codec.Restores 1 r.summary) :
    codec.Restores 5 r := by
  have hresults : NodeResult.codec.list.Restores 4 r.results := .list fun x _ => x.codec_restores
  exact .record (by decide) rfl
    ⟨.always rfl (.bool _), .always rfl (hsummary.mono (by decide)),
      .always rfl (r.bySeverity.codec_restores.mono (by decide)), .always rfl hresults, trivial⟩

/-- No count exceeds the number of findings that it counts. -/
theorem summary_ofFindings_restores {results : List NodeResult} {critical : List Finding}
    (hresults : (results.flatMap (·.findings)).length < UInt64.size)
    (hcritical : critical.length < UInt64.size) :
    Summary.codec.Restores 1 (ofFindings results critical).summary := by
  have htotal := total_ofFindings results critical
  have hlength : (ofFindings results critical).summary.critical = critical.length :=
    List.length_mergeSort _
  exact Summary.codec_restores (by omega) (by omega) (by omega) (hlength ▸ hcritical)

/-- A report is read back from either of its texts, and so is every finding with its node. The
counts of a report have 64 bits. -/
theorem ofText_toText_ofFindings (results : List NodeResult) (critical : List Finding)
    (hresults : (results.flatMap (·.findings)).length < UInt64.size)
    (hcritical : critical.length < UInt64.size) :
    codec.ofText (ofFindings results critical).toText = .ok (ofFindings results critical) ∧
    codec.ofText (ofFindings results critical).toPrettyText = .ok (ofFindings results critical) ∧
    ∀ f : NodeFinding, NodeFinding.codec.ofText (NodeFinding.codec.toText f) = .ok f ∧
      NodeFinding.codec.ofText (NodeFinding.codec.toPrettyText f) = .ok f := by
  have hreport : codec.Restores Codec.maxDepth (ofFindings results critical) :=
    (codec_restores (summary_ofFindings_restores hresults hcritical)).mono (by decide)
  refine ⟨hreport.ofText_toText, hreport.ofText_toPrettyText, fun f => ?_⟩
  have hfinding : NodeFinding.codec.Restores Codec.maxDepth f := f.codec_restores.mono (by decide)
  exact ⟨hfinding.ofText_toText, hfinding.ofText_toPrettyText⟩

/-- A node with two findings, of which one names a field and the other has a priority. -/
def quotedSegment : NodeResult :=
  ⟨"s\"1", .segment, "two\nlines",
    [⟨"name-missing", false, "a \\ and a \t", .error, some "name", none⟩,
      ⟨"known", true, "\u0001 é", .info, none, some 4294967295⟩]⟩

theorem ofText_toText_ofFindings_quotedSegment :
    codec.ofText (ofFindings [quotedSegment] quotedSegment.findings).toText =
      .ok (ofFindings [quotedSegment] quotedSegment.findings) ∧
    codec.ofText (ofFindings [quotedSegment] quotedSegment.findings).toPrettyText =
      .ok (ofFindings [quotedSegment] quotedSegment.findings) ∧
    ∀ f ∈ quotedSegment.tagged, NodeFinding.codec.ofText (NodeFinding.codec.toText f) = .ok f := by
  obtain ⟨hcompact, hpretty, hfindings⟩ :=
    ofText_toText_ofFindings [quotedSegment] quotedSegment.findings (by decide) (by decide)
  exact ⟨hcompact, hpretty, fun f _ => (hfindings f).1⟩

end Report
end CampaignRouting
