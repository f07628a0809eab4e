import Ownership.Proofs.Impact.Partition
import Ownership.Proofs.Text.Infix
import Ownership.Report.Impact

set_option autoImplicit false

/-!
# Comments between markers

A comment begins and ends with a marker, whatever it is about. Names, handles, channels and paths
are taken over as they are: a marker stands in the middle of a comment exactly when one of them has
it inside.
-/
namespace Ownership.ImpactView

/-- The texts that a comment takes over. -/
inductive Quotes (v : ImpactView) : String → Prop where
  | service {s : ServiceImpact} (hs : s ∈ v.report.services) : Quotes v s.service
  | owner {s : ServiceImpact} {known : Service} {o : OwnerRef} (hs : s ∈ v.report.services)
      (hknown : v.catalog.get? s.service = some known) (ho : o ∈ known.owners) : Quotes v o.handle
  | slack {s : ServiceImpact} {known : Service} {channel : String} (hs : s ∈ v.report.services)
      (hknown : v.catalog.get? s.service = some known)
      (hchannel : known.contact.slack = some channel) : Quotes v channel
  | unmapped {path : String} (hpath : path ∈ v.report.unmapped.take commentUnmapped) :
    Quotes v path
  | file {s : ServiceImpact} {path : String} (hs : s ∈ v.report.services)
      (hpath : path ∈ s.files.take v.maxFiles) : Quotes v path

theorem mem_ranked {v : ImpactView} {s : ServiceImpact} :
    s ∈ v.ranked ↔ s ∈ v.report.services :=
  List.mem_mergeSort

/-! ## Markers -/

structure IsMarker (m : List Char) : Prop where
  opens : "<!".toList <+: m
  closes : m.getLast? = some '>'
  lacks_feed : '\n' ∉ m
  lacks_dot : '·' ∉ m
  lacks_comma : ',' ∉ m

theorem isMarker_begin : IsMarker beginMarker.toList where
  opens := by decide
  closes := by decide
  lacks_feed := by decide
  lacks_dot := by decide
  lacks_comma := by decide

theorem isMarker_end : IsMarker endMarker.toList where
  opens := by decide
  closes := by decide
  lacks_feed := by decide
  lacks_dot := by decide
  lacks_comma := by decide

section Marker

variable {m : List Char} (hm : IsMarker m)
include hm

theorem IsMarker.head : m.head? = some '<' := by
  obtain ⟨rest, rfl⟩ := hm.opens
  rfl

theorem IsMarker.ne_nil : m ≠ [] := by
  rintro rfl
  cases hm.closes

theorem IsMarker.cuts {sep : List Char} {c : Char} (hopen : '<' ∉ sep) (hclose : '>' ∉ sep)
    (hsep : c ∈ sep) (hc : c ∉ m) : Text.Cuts sep m :=
  Text.cuts_of_ends hm.head hm.closes hopen hclose hsep hc

theorem IsMarker.infix_framed_iff {before piece after : List Char} (hbefore : '<' ∉ before)
    (hafter : '>' ∉ after) : m <:+: before ++ piece ++ after ↔ m <:+: piece := by
  rw [Text.infix_append_of_last hm.closes hafter, Text.infix_append_of_head hm.head hbefore]

theorem IsMarker.not_infix_of_plain {text : List Char} (h : '<' ∉ text) : ¬ m <:+: text :=
  fun hinside => h (hinside.subset (List.mem_of_mem_head? hm.head))

theorem IsMarker.not_infix_of_closed {text : List Char} (h : ¬ "<!".toList <:+: text) :
    ¬ m <:+: text :=
  fun hinside => h (hm.opens.isInfix.trans hinside)

/-! ## Lines -/

theorem infix_joinLines_iff {lines : List String} :
    m <:+: (Text.joinLines lines).toList ↔ ∃ line ∈ lines, m <:+: line.toList := by
  have hcuts : Text.Cuts "\n".toList m :=
    hm.cuts (by decide) (by decide) (by decide) hm.lacks_feed
  rw [Text.joinLines, hcuts.infix_intercalate_iff hm.ne_nil]

theorem infix_bullet_iff {bits : List String} :
    m <:+: (bullet bits).toList ↔ ∃ bit ∈ bits, m <:+: bit.toList := by
  have hcuts : Text.Cuts " · ".toList m :=
    hm.cuts (by decide) (by decide) (by decide) hm.lacks_dot
  rw [bullet, String.toList_append, Text.infix_append_of_head hm.head (by decide),
    hcuts.infix_intercalate_iff hm.ne_nil]

omit hm in
theorem plain_toString (n : Nat) : '<' ∉ (toString n).toList := by
  intro hmem
  have hdigit := Nat.isDigit_of_mem_toDigits (by decide) (by decide) (Nat.toList_repr ▸ hmem)
  exact absurd hdigit (by decide)

theorem not_infix_count {before : String} (h : '<' ∉ before.toList) (n : Nat) :
    ¬ m <:+: (before ++ toString n).toList := by
  refine hm.not_infix_of_plain ?_
  rw [String.toList_append, List.mem_append]
  exact not_or.mpr ⟨h, plain_toString n⟩

theorem not_infix_fileCount (n : Nat) : ¬ m <:+: (fileCount n).toList := by
  refine hm.not_infix_of_plain ?_
  rw [fileCount]
  split
  · decide
  · rw [String.toList_append, List.mem_append]
    exact not_or.mpr ⟨plain_toString n, by decide⟩

theorem infix_bulletFile_iff {file : String} :
    m <:+: (bulletFile file).toList ↔ m <:+: file.toList := by
  rw [bulletFile, String.toList_append, String.toList_append,
    hm.infix_framed_iff (by decide) (by decide)]

theorem not_infix_bulletMore (n : Nat) : ¬ m <:+: (bulletMore n).toList := by
  refine hm.not_infix_of_plain ?_
  simp only [bulletMore, String.toList_append, List.mem_append, not_or]
  exact ⟨⟨by decide, plain_toString n⟩, by decide⟩

theorem infix_fileLines_iff {limit : Nat} {files : List String} :
    (∃ line ∈ fileLines limit bulletFile bulletMore files, m <:+: line.toList) ↔
      ∃ file ∈ files.take limit, m <:+: file.toList := by
  have hmore : ¬ ∃ line ∈ if limit < files.length then [bulletMore (files.length - limit)] else [],
      m <:+: line.toList := by
    rintro ⟨line, hline, hinside⟩
    split at hline
    · rw [List.mem_singleton.mp hline] at hinside
      exact not_infix_bulletMore hm _ hinside
    · cases hline
  simp only [fileLines, List.mem_append, or_and_right, exists_or, hmore, or_false,
    List.mem_map, exists_exists_and_eq_and, infix_bulletFile_iff hm]

theorem infix_ownersBit_iff {s : Service} :
    (∃ bit ∈ ownersBit s, m <:+: bit.toList) ↔ ∃ o ∈ s.owners, m <:+: o.handle.toList := by
  have hcuts : Text.Cuts ", ".toList m :=
    hm.cuts (by decide) (by decide) (by decide) hm.lacks_comma
  have hline : m <:+: s.ownersLine.toList ↔ ∃ o ∈ s.owners, m <:+: o.handle.toList := by
    rw [Service.ownersLine, hcuts.infix_intercalate_iff hm.ne_nil]
    simp only [List.mem_filter, List.mem_map, decide_eq_true_eq]
    constructor
    · rintro ⟨_, ⟨⟨o, ho, rfl⟩, -⟩, hinside⟩
      exact ⟨o, ho, hinside⟩
    · rintro ⟨o, ho, hinside⟩
      refine ⟨o.handle, ⟨⟨o, ho, rfl⟩, ?_⟩, hinside⟩
      intro hempty
      rw [hempty] at hinside
      exact hm.ne_nil (List.eq_nil_of_infix_nil hinside)
  rw [ownersBit, ← hline]
  split
  case isTrue hempty =>
    rw [hempty]
    exact iff_of_false nofun fun h => hm.ne_nil (List.eq_nil_of_infix_nil h)
  case isFalse =>
    simp only [List.mem_singleton, exists_eq_left, String.toList_append]
    exact Text.infix_append_of_head hm.head (by decide)

theorem infix_commentService_iff (v : ImpactView) (s : ServiceImpact) :
    m <:+: (v.commentService s).toList ↔
      m <:+: s.service.toList ∨ ∃ known, v.catalog.get? s.service = some known ∧
        ((∃ o ∈ known.owners, m <:+: o.handle.toList) ∨
          ∃ channel, known.contact.slack = some channel ∧ m <:+: channel.toList) := by
  have hname : m <:+: ("**" ++ s.service ++ "**").toList ↔ m <:+: s.service.toList := by
    rw [String.toList_append, String.toList_append, hm.infix_framed_iff (by decide) (by decide)]
  have hslack (channel : String) :
      m <:+: ("slack: `" ++ channel ++ "`").toList ↔ m <:+: channel.toList := by
    rw [String.toList_append, String.toList_append, hm.infix_framed_iff (by decide) (by decide)]
  rw [commentService, infix_bullet_iff hm]
  simp only [List.mem_cons, exists_eq_or_imp, hname, not_infix_fileCount hm, false_or]
  refine or_congr_right ?_
  cases v.catalog.get? s.service with
  | none => simp
  | some known =>
    simp only [List.mem_append, or_and_right, exists_or, infix_ownersBit_iff hm, Option.mem_toList,
      Option.map_eq_some_iff, exists_exists_and_eq_and, hslack, Option.some.injEq,
      exists_eq_left']

theorem infix_commentFiles_iff (v : ImpactView) (s : ServiceImpact) :
    (∃ line ∈ v.commentFiles s, m <:+: line.toList) ↔
      m <:+: s.service.toList ∨ ∃ file ∈ s.files.take v.maxFiles, m <:+: file.toList := by
  have hheading : m <:+: ("### " ++ s.service).toList ↔ m <:+: s.service.toList := by
    rw [String.toList_append, Text.infix_append_of_head hm.head (by decide)]
  have hblank : ¬ m <:+: "".toList := hm.not_infix_of_plain (by decide)
  simp only [commentFiles, List.cons_append, List.mem_cons, List.mem_append, or_and_right,
    exists_or, exists_eq_left, List.not_mem_nil, hblank, or_false, infix_fileLines_iff hm,
    hheading]

theorem infix_commentUnmappedLines_iff (v : ImpactView) :
    (∃ line ∈ v.commentUnmappedLines, m <:+: line.toList) ↔
      ∃ path ∈ v.report.unmapped.take commentUnmapped, m <:+: path.toList := by
  have hcount (n : Nat) : ¬ m <:+: ("**Unmapped files:** " ++ toString n).toList :=
    not_infix_count hm (by decide) n
  have hblank : ¬ m <:+: "".toList := hm.not_infix_of_plain (by decide)
  rw [commentUnmappedLines]
  split
  case isTrue =>
    simp only [List.cons_append, List.mem_cons, List.mem_append, or_and_right, exists_or,
      exists_eq_left, List.not_mem_nil, hcount, hblank, or_false, false_or, infix_fileLines_iff hm]
  case isFalse hnone =>
    rw [ImpactReport.hasUnmapped, Bool.not_eq_true, Bool.not_eq_false', List.isEmpty_iff] at hnone
    simp [hnone]

theorem infix_commentServices_iff (v : ImpactView) :
    (∃ line ∈ if v.ranked.isEmpty then ["_None_"] else v.ranked.map v.commentService,
        m <:+: line.toList) ↔
      ∃ s ∈ v.report.services, m <:+: (v.commentService s).toList := by
  have hnone : ¬ m <:+: "_None_".toList := hm.not_infix_of_plain (by decide)
  simp only [← mem_ranked]
  cases v.ranked with
  | nil =>
    simp only [List.isEmpty_nil, if_true, List.mem_singleton, exists_eq_left, List.not_mem_nil,
      false_and, exists_false, hnone]
  | cons =>
    simp only [List.isEmpty_cons, Bool.false_eq_true, if_false, List.mem_map,
      exists_exists_and_eq_and]

/-- A marker in the middle of a comment is in what is said of a service, in the list of unmapped
files or in the files of a service: the other lines are fixed texts and numbers. -/
theorem infix_commentLines_iff (v : ImpactView) :
    (∃ line ∈ v.commentLines, m <:+: line.toList) ↔
      (∃ s ∈ v.report.services, m <:+: (v.commentService s).toList) ∨
      (∃ line ∈ v.commentUnmappedLines, m <:+: line.toList) ∨
      ∃ s ∈ v.report.services, ∃ line ∈ v.commentFiles s, m <:+: line.toList := by
  have hcount (n : Nat) : ¬ m <:+: ("**Impacted services:** " ++ toString n).toList :=
    not_infix_count hm (by decide) n
  have hfixed (lines : List String) (h : ∀ line ∈ lines, ¬ "<!".toList <:+: line.toList) :
      ¬ ∃ line ∈ lines, m <:+: line.toList := by
    rintro ⟨line, hline, hinside⟩
    exact hm.not_infix_of_closed (h line hline) hinside
  have hhead : ¬ ∃ line ∈ ["## ServiceOwners", "",
      "**Impacted services:** " ++ toString v.ranked.length, ""], m <:+: line.toList := by
    have htitle := hfixed ["## ServiceOwners", "", ""] (by decide +kernel)
    simp only [List.mem_cons, exists_eq_or_imp, not_or] at htitle ⊢
    exact ⟨htitle.1, htitle.2.1, hcount _, htitle.2.2⟩
  have hblank := hfixed [""] (by decide +kernel)
  have hdetails := hfixed ["<details>", "<summary>Changed files by service</summary>", ""]
    (by decide +kernel)
  have hnone := hfixed (if v.ranked.isEmpty then ["_No mapped services._", ""] else [])
    (by split <;> decide +kernel)
  have hclose := hfixed ["</details>", ""] (by decide +kernel)
  have hservices : (∃ line ∈ v.ranked.flatMap v.commentFiles, m <:+: line.toList) ↔
      ∃ s ∈ v.report.services, ∃ line ∈ v.commentFiles s, m <:+: line.toList := by
    simp only [List.mem_flatMap, mem_ranked]
    constructor
    · rintro ⟨line, ⟨s, hs, hline⟩, hinside⟩
      exact ⟨s, hs, line, hline, hinside⟩
    · rintro ⟨s, hs, line, hline, hinside⟩
      exact ⟨line, ⟨s, hs, hline⟩, hinside⟩
  rw [← infix_commentServices_iff hm, ← hservices, commentLines]
  simp only [List.mem_append, or_and_right, exists_or, hhead, hblank, hdetails, hnone, hclose,
    false_or, or_false, or_assoc]

theorem infix_commentLines_iff_quotes (v : ImpactView) :
    (∃ line ∈ v.commentLines, m <:+: line.toList) ↔ ∃ text, v.Quotes text ∧ m <:+: text.toList := by
  simp only [infix_commentLines_iff hm, infix_commentService_iff hm,
    infix_commentUnmappedLines_iff hm, infix_commentFiles_iff hm]
  constructor
  · rintro (⟨s, hs, hname | ⟨known, hknown, ⟨o, ho, hinside⟩ | ⟨channel, hchannel, hinside⟩⟩⟩ |
      ⟨path, hpath, hinside⟩ | ⟨s, hs, hname | ⟨file, hfile, hinside⟩⟩)
    · exact ⟨_, .service hs, hname⟩
    · exact ⟨_, .owner hs hknown ho, hinside⟩
    · exact ⟨_, .slack hs hknown hchannel, hinside⟩
    · exact ⟨_, .unmapped hpath, hinside⟩
    · exact ⟨_, .service hs, hname⟩
    · exact ⟨_, .file hs hfile, hinside⟩
  · rintro ⟨text, hquotes, hinside⟩
    cases hquotes with
    | service hs => exact .inl ⟨_, hs, .inl hinside⟩
    | owner hs hknown ho => exact .inl ⟨_, hs, .inr ⟨_, hknown, .inl ⟨_, ho, hinside⟩⟩⟩
    | slack hs hknown hchannel =>
      exact .inl ⟨_, hs, .inr ⟨_, hknown, .inr ⟨_, hchannel, hinside⟩⟩⟩
    | unmapped hpath => exact .inr (.inl ⟨_, hpath, hinside⟩)
    | file hs hpath => exact .inr (.inr ⟨_, hs, .inr ⟨_, hpath, hinside⟩⟩)

end Marker

/-! ## Comments -/

theorem toList_toComment (v : ImpactView) :
    v.toComment.toList = beginMarker.toList ++
      '\n' :: ((Text.joinLines v.commentLines).toList ++ '\n' :: endMarker.toList) := by
  have hlines : v.commentLines ≠ [] := by simp [commentLines]
  obtain ⟨line, lines, hlines⟩ := List.exists_cons_of_ne_nil hlines
  rw [toComment, Text.joinLines, Text.joinLines,
    String.intercalate_append_of_ne_nil (List.cons_ne_nil _ _) (List.cons_ne_nil _ _), hlines,
    String.intercalate_cons_cons, String.intercalate_singleton]
  simp only [String.toList_append, List.append_assoc]
  rfl

theorem not_infix_between_iff {m : List Char} (hm : IsMarker m) (v : ImpactView) :
    ¬ m <:+: (Text.joinLines v.commentLines).toList ↔
      ∀ text, v.Quotes text → ¬ m <:+: text.toList := by
  rw [infix_joinLines_iff hm, infix_commentLines_iff_quotes hm]
  simp only [not_exists, not_and]

theorem onlyAtStart_toComment_iff (v : ImpactView) :
    Text.OnlyAtStart beginMarker.toList v.toComment.toList ↔
      ∀ text, v.Quotes text → ¬ beginMarker.toList <:+: text.toList := by
  have hend : ¬ beginMarker.toList <:+: endMarker.toList := by decide +kernel
  rw [toList_toComment, Text.onlyAtStart_iff isMarker_begin.ne_nil (by decide),
    Text.infix_append_cons_iff isMarker_begin.ne_nil (by decide),
    ← not_infix_between_iff isMarker_begin]
  simp only [hend, or_false]

theorem onlyAtEnd_toComment_iff (v : ImpactView) :
    Text.OnlyAtEnd endMarker.toList v.toComment.toList ↔
      ∀ text, v.Quotes text → ¬ endMarker.toList <:+: text.toList := by
  have hbegin : ¬ endMarker.toList <:+: beginMarker.toList := by decide +kernel
  rw [toList_toComment, ← List.cons_append, ← List.append_assoc,
    Text.onlyAtEnd_iff isMarker_end.ne_nil (by decide),
    Text.infix_append_cons_iff isMarker_end.ne_nil (by decide),
    ← not_infix_between_iff isMarker_end]
  simp only [hbegin, false_or]

/-- A comment stands between its markers. Each of the two stands nowhere else exactly if none of the
texts that the comment takes over has it inside: nothing is escaped. -/
theorem toComment_delimited (v : ImpactView) :
    beginMarker.toList <+: v.toComment.toList ∧ endMarker.toList <:+ v.toComment.toList ∧
      (Text.OnlyAtStart beginMarker.toList v.toComment.toList ↔
        ∀ text, v.Quotes text → ¬ beginMarker.toList <:+: text.toList) ∧
      (Text.OnlyAtEnd endMarker.toList v.toComment.toList ↔
        ∀ text, v.Quotes text → ¬ endMarker.toList <:+: text.toList) := by
  refine ⟨?_, ?_, onlyAtStart_toComment_iff v, onlyAtEnd_toComment_iff v⟩
  · rw [toList_toComment]
    exact List.prefix_append _ _
  · rw [toList_toComment, ← List.cons_append, ← List.append_assoc]
    exact (List.suffix_cons _ _).trans (List.suffix_append _ _)

/-- A file may be named like a marker. Nobody owns it here, so the comment lists it. -/
theorem not_onlyAtEnd_of_path :
    ¬ Text.OnlyAtEnd endMarker.toList
      (ImpactView.mk ((Index.mk defaultSource []).impact [endMarker]) Catalog.empty none false
        50).toComment.toList := by
  have hlisted : ((Index.mk defaultSource []).impact [endMarker]).unmapped = [endMarker] := by
    rw [Index.unmapped_impact]
    exact List.mergeSort_singleton endMarker
  intro honly
  refine (onlyAtEnd_toComment_iff _).mp honly endMarker (.unmapped ?_) List.infix_rfl
  rw [hlisted]
  exact List.mem_singleton_self _

end Ownership.ImpactView
