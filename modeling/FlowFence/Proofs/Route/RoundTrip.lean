import FlowFence.Proofs.Route.Community
import FlowFence.Proofs.Route.Pairs

/-!
# Written blocks read back

Delimiters do not occur in a plain word, and no group has those of another one. So each group is
found between its own delimiters wherever it stands, and a block that is written for a route is read
as that route.
-/

namespace FlowFence

namespace Route

open Text (joined)

variable {layout : Layout} {route : Route} {pattern : Nat} {c : Char}

/-! ## Characters of groups -/

def Group.marks : Group → List Char
  | .session => "[]".toList
  | .criteria => "{};".toList
  | .community => "()".toList

theorem mem_delimiters_of_mem_marks {group : Group} (h : c ∈ group.marks) : c ∈ delimiters := by
  have hmarks : ∀ d ∈ group.marks, d ∈ delimiters :=
    List.all_iff_forall_prop.mp (by cases group <;> decide)
  exact hmarks c h

theorem not_mem_marks {group other : Group} (hne : group ≠ other) (h : c ∈ group.marks) :
    c ∉ other.marks := by
  have hmarks : ∀ d ∈ group.marks, d ∉ other.marks := by
    refine List.all_iff_forall_prop.mp ?_
    cases group <;> cases other <;> first | exact absurd rfl hne | decide
  exact hmarks c h

/-- A field of a community is made of digits and the mark of their base. -/
theorem isPlainChar_of_field (h : c = 'x' ∨ Text.IsAddressChar c) : IsPlainChar c ∧ c ≠ ',' := by
  rcases h with rfl | haddress
  · decide
  · refine ⟨isPlainChar_of_isAddressChar haddress, ?_⟩
    have hdigits : ∀ digit < 16, Nat.digitChar digit ≠ ',' := by decide
    rcases haddress with ⟨digit, hdigit, rfl⟩ | rfl | rfl | rfl
    · exact hdigits digit hdigit
    · decide
    · decide
    · decide

theorem isAddressChar_zero : Text.IsAddressChar '0' :=
  .inl ⟨0, by decide, rfl⟩

theorem mem_codeField {action : Action} (h : c ∈ codeField action) :
    c = 'x' ∨ Text.IsAddressChar c := by
  rw [codeField, List.mem_append, List.mem_cons, List.mem_cons] at h
  rcases h with (rfl | rfl | hdigit) | hsystem
  · exact .inr isAddressChar_zero
  · exact .inl rfl
  · exact .inr (Text.isAddressChar_of_mem_toDigits (by decide) (by decide) hdigit)
  · have hzeros : ∀ d ∈ systemDigits, d = '0' := List.all_iff_forall_prop.mp (by decide)
    exact .inr (hzeros c hsystem ▸ isAddressChar_zero)

theorem mem_argumentField {width : Nat} (h : c ∈ argumentField width pattern) :
    c = 'x' ∨ Text.IsAddressChar c := by
  rw [argumentField, List.mem_cons, List.mem_cons, Text.padded, List.mem_append,
    List.mem_replicate] at h
  rcases h with rfl | rfl | ⟨-, rfl⟩ | hdigit
  · exact .inr isAddressChar_zero
  · exact .inl rfl
  · exact .inr isAddressChar_zero
  · exact .inr (Text.isAddressChar_of_mem_toDigits (by decide) (by decide) hdigit)

theorem mem_fieldsText {action : Action} {width : Nat} (h : c ∈ fieldsText action width pattern) :
    c = ' ' ∨ IsPlainChar c := by
  have hkind : ∀ d ∈ kindField, IsPlainChar d := List.all_iff_forall_prop.mp (by decide)
  rw [fieldsText, List.mem_append, List.mem_append, List.mem_cons, List.mem_cons, List.mem_cons,
    List.mem_cons] at h
  rcases h with (hmem | rfl | rfl | hmem) | rfl | rfl | hmem
  · exact .inr (hkind c hmem)
  · exact .inr (by decide)
  · exact .inl rfl
  · exact .inr (isPlainChar_of_field (mem_codeField hmem)).1
  · exact .inr (by decide)
  · exact .inl rfl
  · exact .inr (isPlainChar_of_field (mem_argumentField hmem)).1

theorem mem_label {label : List Char} (hlabel : label ∈ communityLabels) (h : c ∈ label) :
    c = '(' ∨ c = ' ' ∨ IsPlainChar c := by
  simp only [communityLabels, List.mem_cons, List.not_mem_nil, or_false] at hlabel
  have hchars : ∀ d ∈ label, d = '(' ∨ d = ' ' ∨ IsPlainChar d := by
    refine List.all_iff_forall_prop.mp ?_
    rcases hlabel with rfl | rfl <;> decide
  exact hchars c h

theorem isPlainWord_session (hroute : IsWritable route pattern) :
    ∀ word ∈ sessionWords route.session, IsPlainWord word := by
  have hfrom : IsPlainWord "from".toList := by decide
  simp only [sessionWords, List.forall_mem_cons, List.not_mem_nil, false_imp_iff, implies_true,
    and_true]
  exact ⟨hroute.name, hroute.imported, hfrom, isPlainWord_address _⟩

/-- A group is made of its delimiters, spaces and plain characters. -/
theorem mem_groupText (hroute : IsWritable route pattern) (hfits : layout.Fits route.criteria)
    {group : Group} (h : c ∈ layout.groupText route pattern group) :
    c ∈ group.marks ∨ c = ' ' ∨ IsPlainChar c := by
  cases group with
  | session =>
      simp only [Layout.groupText, sessionText, List.mem_cons, List.mem_append, List.cons_append,
        List.not_mem_nil, or_false] at h
      rcases h with rfl | h | rfl
      · exact .inl (by decide)
      · exact .inr (mem_joined_plain (isPlainWord_session hroute) h)
      · exact .inl (by decide)
  | criteria =>
      simp only [Layout.groupText, criteriaText, pairsText, List.mem_cons, List.mem_append,
        List.cons_append, List.mem_flatMap, List.not_mem_nil, or_false] at h
      rcases h with rfl | rfl | ⟨pair, hpair, h | rfl | rfl⟩ | rfl
      · exact .inl (by decide)
      · exact .inr (.inl rfl)
      · exact .inr (mem_joined_plain (fun _ hword => isPlainWord_of_mem_words hfits hpair hword) h)
      · exact .inl (by decide)
      · exact .inr (.inl rfl)
      · exact .inl (by decide)
  | community =>
      simp only [Layout.groupText, List.mem_append, List.mem_singleton] at h
      rcases h with (h | h) | rfl
      · rcases mem_label hfits.label h with rfl | hrest
        · exact .inl (by decide)
        · exact .inr hrest
      · exact .inr (mem_fieldsText h)
      · exact .inl (by decide)

theorem not_mem_groupText (hroute : IsWritable route pattern) (hfits : layout.Fits route.criteria)
    {group other : Group} (hne : group ≠ other) (hc : c ∈ group.marks) :
    c ∉ layout.groupText route pattern other := by
  intro hmem
  have hdelimiter := mem_delimiters_of_mem_marks hc
  rcases mem_groupText hroute hfits hmem with hother | hplain
  · exact not_mem_marks hne hc hother
  · exact not_mem_delimiters hplain hdelimiter

/-! ## The first line -/

theorem not_mem_flatMap (hroute : IsWritable route pattern) (hfits : layout.Fits route.criteria)
    {group : Group} {others : List Group} (hmem : group ∉ others) (hc : c ∈ group.marks) :
    c ∉ others.flatMap fun other => ' ' :: layout.groupText route pattern other := by
  intro hflat
  obtain ⟨other, hother, htext⟩ := List.mem_flatMap.mp hflat
  rcases List.mem_cons.mp htext with rfl | htext
  · exact absurd (mem_delimiters_of_mem_marks hc) (by decide)
  · have hne := ne_of_mem_of_not_mem hother hmem
    exact not_mem_groupText hroute hfits hne.symm hc htext

theorem not_mem_marker (family : Family) (hc : c ∈ delimiters) : c ∉ Layout.marker family := by
  have hmarker : ∀ d ∈ delimiters, d ∉ Layout.marker family :=
    List.all_iff_forall_prop.mp (by cases family <;> decide)
  exact hmarker c hc

/-- A group of the first line stands between texts without its delimiters. -/
theorem exists_lineText_eq (hroute : IsWritable route pattern) (hfits : layout.Fits route.criteria)
    {group : Group} (h : group ∈ layout.order) :
    ∃ front back, layout.lineText route pattern =
        front ++ layout.groupText route pattern group ++ back ∧
      ∀ c ∈ group.marks, c ∉ front ∧ c ∉ back := by
  obtain ⟨left, right, horder⟩ := List.append_of_mem h
  have honce := hfits.once
  rw [horder, List.nodup_append, List.nodup_cons] at honce
  obtain ⟨-, ⟨hright, -⟩, hapart⟩ := honce
  have hleft : group ∉ left := fun hmem => hapart group hmem group List.mem_cons_self rfl
  have hbefore (c : Char) (hc : c ∈ group.marks) := not_mem_flatMap hroute hfits hleft hc
  have hafter (c : Char) (hc : c ∈ group.marks) := not_mem_flatMap hroute hfits hright hc
  refine ⟨Layout.marker layout.family ++
      (left.flatMap fun other => ' ' :: layout.groupText route pattern other) ++ [' '],
    right.flatMap fun other => ' ' :: layout.groupText route pattern other, ?_, ?_⟩
  · simp [Layout.lineText, horder]
  · intro c hc
    have hdelimiter := mem_delimiters_of_mem_marks hc
    have hspace : c ≠ ' ' := by
      rintro rfl
      exact absurd hdelimiter (by decide)
    refine ⟨?_, hafter c hc⟩
    simp only [List.mem_append, List.mem_singleton, not_or]
    exact ⟨⟨not_mem_marker layout.family hdelimiter, hbefore c hc⟩, hspace⟩

theorem not_mem_lineText (hroute : IsWritable route pattern) (hfits : layout.Fits route.criteria)
    (hblank : Text.isBlank c = true) (hspace : c ≠ ' ') : c ∉ layout.lineText route pattern := by
  intro hmem
  have hmarker : ∀ d ∈ Layout.marker layout.family, Text.isBlank d = false :=
    List.all_iff_forall_prop.mp (by cases layout.family <;> decide)
  have hmarks (group : Group) : ∀ d ∈ group.marks, Text.isBlank d = false :=
    List.all_iff_forall_prop.mp (by cases group <;> decide)
  rw [Layout.lineText, List.mem_append, List.mem_flatMap] at hmem
  rcases hmem with hlead | ⟨group, -, htext⟩
  · simp [hmarker c hlead] at hblank
  · rcases mem_groupText hroute hfits ((List.mem_cons.mp htext).resolve_left hspace) with
      hmark | rfl | hplain
    · simp [hmarks group c hmark] at hblank
    · exact hspace rfl
    · simp [hplain.1] at hblank

theorem exists_block_eq (hfits : layout.Fits route.criteria) (pattern : Nat) :
    ∃ more, layout.block route pattern = layout.lineText route pattern ++ more ∧
      (more = [] ∨ more.head? = some '\n') := by
  unfold Layout.block
  split
  · rename_i hmem
    exact ⟨layout.below, rfl, hfits.lineEnd hmem⟩
  · exact ⟨_, rfl, .inr rfl⟩

theorem exists_lineText_eq_cons (layout : Layout) (route : Route) (pattern : Nat) :
    ∃ digit rest, layout.lineText route pattern = 'f' :: 'l' :: 'o' :: 'w' :: digit :: rest ∧
      (digit = '4' ∨ digit = '6') := by
  unfold Layout.lineText
  cases layout.family with
  | ipv4 => exact ⟨'4', _, rfl, .inl rfl⟩
  | ipv6 => exact ⟨'6', _, rfl, .inr rfl⟩

theorem headerLine_block (hroute : IsWritable route pattern) (hfits : layout.Fits route.criteria) :
    headerLine (layout.block route pattern) = layout.lineText route pattern := by
  obtain ⟨more, hblock, hmore⟩ := exists_block_eq hfits pattern
  obtain ⟨digit, rest, hline, -⟩ := exists_lineText_eq_cons layout route pattern
  have htrim : Text.trimStart (layout.block route pattern) = layout.block route pattern := by
    simp [hblock, hline, Text.trimStart, show Text.isBlank 'f' = false by decide]
  rw [headerLine, htrim, hblock]
  exact Text.firstLine_append_of_not_mem (not_mem_lineText hroute hfits (by decide) (by decide))
    (not_mem_lineText hroute hfits (by decide) (by decide)) hmore

theorem exists_header? (hroute : IsWritable route pattern) (hfits : layout.Fits route.criteria) :
    ∃ header, header? (layout.block route pattern) = .ok header := by
  have hheader := headerLine_block hroute hfits
  obtain ⟨digit, rest, hline, hdigit⟩ := exists_lineText_eq_cons layout route pattern
  rw [hline] at hheader
  exact ⟨digit :: rest, header?_of_headerLine hheader hdigit⟩

/-! ## Groups read back -/

theorem session?_written (hroute : IsWritable route pattern) (hfits : layout.Fits route.criteria) :
    session? (Text.between ['['] [']'] (layout.lineText route pattern)) = .ok route.session := by
  obtain ⟨front, back, hline, hapart⟩ := exists_lineText_eq hroute hfits hfits.session_mem
  have hwords := isPlainWord_session hroute
  have hopen : '[' ∉ front ++ [] := by
    rw [List.append_nil]
    exact (hapart '[' (by decide)).1
  have hclose : ']' ∉ joined ' ' (sessionWords route.session) := fun hmem =>
    not_mem_delimiters (mem_joined_plain hwords hmem) (by decide)
  have hcut : Text.cut? ['['] (layout.lineText route pattern) =
      some (front, joined ' ' (sessionWords route.session) ++ ']' :: back) := by
    rw [hline, Layout.groupText, sessionText]
    simpa using Text.cut?_of_last_not_mem hopen
      (joined ' ' (sessionWords route.session) ++ ']' :: back)
  rw [Text.between_of_cut? hcut hclose]
  unfold session?
  rw [words_joined_of_plain hwords]
  simp [sessionWords, Address.parse?_text]

theorem criteria?_written (hroute : IsWritable route pattern)
    (hfits : layout.Fits route.criteria) :
    criteria? (Text.between ['{', ' '] [' ', '}'] (layout.lineText route pattern)) =
      .ok route.criteria := by
  obtain ⟨front, back, hline, hapart⟩ := exists_lineText_eq hroute hfits hfits.criteria_mem
  have hopen : '{' ∉ front := (hapart '{' (by decide)).1
  have hbehind : ';' ∉ Text.upTo [' ', '}'] back := fun hmem =>
    (hapart ';' (by decide)).2 (Text.upTo_subset _ _ hmem)
  -- without pairs the closing brace has no space of its own and the line is scanned to its end
  have hspaced : IsSpaced (' ' :: pairsText route.criteria layout.pairs) back :=
    ⟨_, rfl, .inr ⟨endsBlank_pairsText _ _, hbehind⟩⟩
  have hclose : '}' ∉ ' ' :: pairsText route.criteria layout.pairs := by
    simp only [pairsText, List.mem_cons, List.mem_flatMap, List.mem_append, List.not_mem_nil,
      or_false, not_or, not_exists, not_and]
    refine ⟨by decide, fun pair hpair => ⟨not_mem_text hfits hpair (by decide), by decide⟩⟩
  have hread := criteria?_of_isSpaced hspaced hclose hopen
  rw [criteria?_pairsText hroute hfits] at hread
  rw [hline, Layout.groupText, criteriaText]
  simpa using hread

/-! ## The community -/

theorem typeCode?_codeField (action : Action) :
    typeCode? (codeField action) = some (action.code : Int) := by
  have hlimit : action.code < 2 ^ 63 := by
    cases action <;> decide
  rw [typeCode?, codeField, Text.before?_append, Option.getD_some,
    Text.signedNumeral?_hexadecimal hlimit]

theorem isHexadecimal_argumentField (width pattern : Nat) :
    IsHexadecimal pattern (argumentField width pattern) :=
  ⟨['0', 'x'], by simp, Text.padded width (Text.hexadecimal pattern), rfl,
    Text.numeral?_padded (by decide) (by decide) width pattern⟩

theorem decodeRate?_argumentField (hbits : pattern < 2 ^ 32) (width : Nat) :
    decodeRate? (argumentField width pattern) = Binary32.truncate? pattern :=
  decodeRate?_of_isHexadecimal hbits (isHexadecimal_argumentField width pattern)

theorem communityFields_fieldsText (action : Action) (width pattern : Nat) :
    communityFields (fieldsText action width pattern) =
      [kindField, codeField action, argumentField width pattern] := by
  have hcode {c : Char} (hc : c ∈ codeField action) : IsPlainChar c ∧ c ≠ ',' :=
    isPlainChar_of_field (mem_codeField hc)
  have hargument {c : Char} (hc : c ∈ argumentField width pattern) : IsPlainChar c ∧ c ≠ ',' :=
    isPlainChar_of_field (mem_argumentField hc)
  refine communityFields_of_clean (by decide) (fun hc => (hcode hc).2 rfl)
    (fun hc => (hargument hc).2 rfl) ?_
  simp only [List.forall_mem_cons, List.not_mem_nil, false_imp_iff, implies_true, and_true]
  exact ⟨not_isBlank_of_mem_kindField, fun c hc => (hcode hc).1.1, fun c hc => (hargument hc).1.1⟩

theorem community?_written (hroute : IsWritable route pattern) (width : Nat) :
    community? (fieldsText route.action width pattern) = .ok (route.action, route.argument) := by
  rw [community?_of_fields (communityFields_fieldsText route.action width pattern),
    actionAndArgument?_eq_ok_iff, decodeRate?_argumentField hroute.bits]
  exact ⟨typeCode?_codeField route.action, hroute.argument, hroute.rate⟩

theorem exists_label_eq {label : List Char} (h : label ∈ communityLabels) :
    ∃ lead, label = lead ++ ['('] ∧ '(' ∉ lead ∧ lead.length = 19 := by
  simp only [communityLabels, List.mem_cons, List.not_mem_nil, or_false] at h
  rcases h with rfl | rfl
  · exact ⟨"BGP.ext_community: ".toList, rfl, by decide, by decide⟩
  · exact ⟨"bgp_ext_community: ".toList, rfl, by decide, by decide⟩

section Labels

variable {label other front rest : List Char} (hlabel : label ∈ communityLabels)
  (hfront : '(' ∉ front)

include hlabel hfront

theorem cut?_label (rest : List Char) :
    Text.cut? label (front ++ label ++ rest) = some (front, rest) := by
  obtain ⟨lead, rfl, hlead, -⟩ := exists_label_eq hlabel
  have hcut := @Text.cut?_of_last_not_mem lead front '(' (by simp [hfront, hlead]) rest
  simpa using hcut

theorem between_other_label (hother : other ∈ communityLabels) (hne : other ≠ label)
    (hrest : '(' ∉ rest) : Text.between other [')'] (front ++ label ++ rest) = [] := by
  obtain ⟨lead, rfl, hlead, hlength⟩ := exists_label_eq hlabel
  obtain ⟨lead', rfl, -, hlength'⟩ := exists_label_eq hother
  -- both labels are of one length, so only one of them can end at the parenthesis
  have hends : ∀ l, front ++ lead ≠ l ++ lead' := by
    intro l heq
    obtain ⟨-, hsame⟩ := List.append_inj' heq (hlength.trans hlength'.symm)
    exact hne (by rw [hsame])
  have hnone := Text.cut?_eq_none_of_last_once (by simp [hfront, hlead]) hrest hends
  have htext : front ++ (lead ++ ['(']) ++ rest = front ++ lead ++ '(' :: rest := by simp
  rw [Text.between, htext, hnone]

end Labels

theorem communityGroup_of_between {block label group : List Char} (hlabel : label ∈ communityLabels)
    (hgroup : Text.between label [')'] block = group) (hne : group ≠ [])
    (hothers : ∀ other ∈ communityLabels, other ≠ label → Text.between other [')'] block = []) :
    communityGroup block = group := by
  have hfirst : communityLabel? block = some label := by
    cases hfind : communityLabel? block with
    | none =>
        have hempty := List.find?_eq_none.mp hfind label hlabel
        simp [hgroup, hne] at hempty
    | some other =>
        have hfound := List.find?_some hfind
        by_cases hother : other = label
        · rw [hother]
        · simp [hothers other (List.mem_of_find?_eq_some hfind) hother] at hfound
  rw [communityGroup_eq, hfirst]
  simpa using hgroup

/-- The community stands between texts without a parenthesis that opens. -/
theorem exists_block_eq_community (hroute : IsWritable route pattern)
    (hfits : layout.Fits route.criteria) :
    ∃ front back, layout.block route pattern =
        front ++ layout.groupText route pattern .community ++ back ∧ '(' ∉ front ∧ '(' ∉ back := by
  unfold Layout.block
  split
  · rename_i hmem
    obtain ⟨front, back, hline, hapart⟩ := exists_lineText_eq hroute hfits hmem
    obtain ⟨hfront, hback⟩ := hapart '(' (by decide)
    exact ⟨front, back ++ layout.below, by simp [hline], hfront, by simp [hback, hfits.below]⟩
  · rename_i hmem
    have hline : '(' ∉ layout.lineText route pattern := by
      rw [Layout.lineText, List.mem_append, not_or]
      exact ⟨not_mem_marker _ (by decide), not_mem_flatMap hroute hfits hmem (by decide)⟩
    refine ⟨layout.lineText route pattern ++ '\n' :: layout.above, layout.below, by simp, ?_,
      hfits.below⟩
    simp [hline, hfits.above]

theorem communityGroup_block (hroute : IsWritable route pattern)
    (hfits : layout.Fits route.criteria) :
    communityGroup (layout.block route pattern) = fieldsText route.action layout.width pattern := by
  obtain ⟨front, back, hblock, hfront, hback⟩ := exists_block_eq_community hroute hfits
  have hplain {c : Char} (hc : c ∈ delimiters) :
      c ∉ fieldsText route.action layout.width pattern := fun hmem =>
    not_mem_delimiters (mem_fieldsText hmem) hc
  have htext : layout.block route pattern =
      front ++ layout.label ++ (fieldsText route.action layout.width pattern ++ ')' :: back) := by
    simp [hblock, Layout.groupText]
  have hne : fieldsText route.action layout.width pattern ≠ [] := by
    simp [fieldsText]
  refine communityGroup_of_between hfits.label ?_ hne fun other hother hdiffer => ?_
  · exact Text.between_of_cut? (htext ▸ cut?_label hfits.label hfront _) (hplain (by decide))
  · rw [htext]
    refine between_other_label hfits.label hfront hother hdiffer ?_
    simp [hplain (show '(' ∈ delimiters by decide), hback]

/-! ## Whole blocks -/

/--
A block that is written for a route, with its groups in any order and with any pairs that name no
criterion among the others, is read as that route, and the rate is the one its pattern stands for.
-/
theorem written_block_is_read (hroute : IsWritable route pattern)
    (hfits : layout.Fits route.criteria) :
    parse (layout.block route pattern) = .ok route ∧
      decodeRate? (argumentField layout.width pattern) = some route.argument := by
  have hline := headerLine_block hroute hfits
  have hsession := session?_written hroute hfits
  have hcriteria := criteria?_written hroute hfits
  have hcommunity := community?_written hroute layout.width
  rw [← hline] at hsession hcriteria
  rw [← communityGroup_block hroute hfits] at hcommunity
  constructor
  · exact parse_eq_ok_iff.mpr ⟨exists_header? hroute hfits, hsession, hcriteria, hcommunity⟩
  · rw [decodeRate?_argumentField hroute.bits, hroute.argument]

/-- No space stands in front of the brace that closes a group without pairs. -/
example : parse ("flow4 [flowspec1 2024-05-01 from 192.0.2.1] { } " ++
      "BGP.ext_community: (generic, 0x80060000, 0x0)").toList =
    .ok ⟨⟨"flowspec1", .v4 0xC0000201, "2024-05-01"⟩, {}, .rateBytes, 0⟩ := by
  decide +kernel

/-- A layout with the community in front and with pairs that name no criterion. -/
def shuffledLayout : Layout where
  family := .ipv6
  order := [.community, .criteria, .session]
  pairs := [.other ["tcp".toList, "flags".toList, "0x2/0x2".toList], .criterion .sourcePort,
    .other ["fragment".toList], .criterion .protocol, .criterion .source]
  label := "bgp_ext_community: (".toList
  width := 8
  above := []
  below := ['\n']

def peerRoute : Route where
  session := ⟨"peer6", .v6 0x20010db8000000000000000000000001, "12:00:01.000"⟩
  criteria :=
    { source := some ⟨.v6 0x20010db8000100000000000000000000, 48⟩
      protocol := 17
      sourcePort := 53 }
  action := .ratePackets
  argument := 6553600

theorem shuffledLayout_is_read :
    IsWritable peerRoute 0x4ac80000 ∧ shuffledLayout.Fits peerRoute.criteria ∧
      shuffledLayout.block peerRoute 0x4ac80000 =
        ("flow6 bgp_ext_community: (generic, 0x800c0000, 0x4ac80000) \x7b tcp flags 0x2/0x2; " ++
          "sport 53; fragment; next header 17; src 2001:db8:1::/48; \x7d " ++
          "[peer6 12:00:01.000 from 2001:db8::1]\n").toList ∧
      parse (shuffledLayout.block peerRoute 0x4ac80000) = .ok peerRoute ∧
      decodeRate? (argumentField 8 0x4ac80000) = some 6553600 := by
  have hroute : IsWritable peerRoute 0x4ac80000 := by
    constructor
    case source =>
      rintro network ⟨⟩
      exact ⟨.v6 0x20010db8000100000000000000000000, 48, by decide +kernel⟩
    case destination => rintro network ⟨⟩
    all_goals decide +kernel
  have hothers (unnamed : List (List Char)) (hmem : .other unnamed ∈ shuffledLayout.pairs) :
      unnamed = ["tcp".toList, "flags".toList, "0x2/0x2".toList] ∨
        unnamed = ["fragment".toList] := by
    simpa [shuffledLayout] using hmem
  have hfits : shuffledLayout.Fits peerRoute.criteria := by
    constructor
    case named => rintro (_ | _ | _ | _ | _) <;> decide +kernel
    case plain =>
      intro unnamed hmem
      refine List.all_iff_forall_prop.mp ?_
      rcases hothers unnamed hmem with rfl | rfl <;> decide
    case unknown =>
      intro unnamed hmem
      rcases hothers unnamed hmem with rfl | rfl <;> rintro (_ | _ | _ | _ | _) <;> decide
    all_goals decide +kernel
  exact ⟨hroute, hfits, by decide +kernel, written_block_is_read hroute hfits⟩

end Route

end FlowFence
