import FlowFence.Proofs.Route.Community

/-!
# Routes of blocks that begin alike

What a route is read from is one line and one group of its block. A group that is closed in a text
is the same in all blocks that begin with that text, so what two such blocks are read as can differ
only in the groups that the common start leaves open.
-/

namespace FlowFence

namespace Route

open Text (Closes)

/-! ## The header line -/

/-- The first line of a block, which holds its session group and its match group. -/
def headerLine (block : List Char) : List Char :=
  Text.firstLine (Text.trimStart block)

def HeaderEnded (block : List Char) : Prop :=
  '\n' ∈ Text.trimStart block

instance (block : List Char) : Decidable (HeaderEnded block) :=
  inferInstanceAs (Decidable ('\n' ∈ Text.trimStart block))

theorem trimStart_append {text : List Char} (h : Text.trimStart text ≠ []) (more : List Char) :
    Text.trimStart (text ++ more) = Text.trimStart text ++ more := by
  rw [Text.trimStart, List.dropWhile_append, ← Text.trimStart]
  simp [h]

theorem headerLine_append {part : List Char} (h : HeaderEnded part) (more : List Char) :
    headerLine (part ++ more) = headerLine part := by
  have hne : Text.trimStart part ≠ [] := List.ne_nil_of_mem h
  rw [headerLine, trimStart_append hne, Text.firstLine_append h, ← headerLine]

theorem between_headerLine_append {left right : List Char} {a b : Char} (ha : '\r' ≠ a)
    (hb : '\r' ≠ b) {part : List Char}
    (h : HeaderEnded part ∨ Closes (left ++ [a]) (right ++ [b]) (headerLine part))
    (more : List Char) :
    Text.between (left ++ [a]) (right ++ [b]) (headerLine (part ++ more)) =
      Text.between (left ++ [a]) (right ++ [b]) (headerLine part) := by
  by_cases hended : HeaderEnded part
  · rw [headerLine_append hended]
  · have hclosed := h.resolve_left hended
    have hline : headerLine part = Text.trimStart part := Text.firstLine_of_not_mem hended
    rw [hline] at hclosed ⊢
    have hne : Text.trimStart part ≠ [] := by
      intro hnil
      obtain ⟨front, rest, hcut, -⟩ := hclosed
      have hlength := Text.length_le_of_cut? hcut
      simp [hnil] at hlength
    rw [headerLine, trimStart_append hne]
    exact Text.between_firstLine_append ha hb hended hclosed more

theorem sessionText_append {part : List Char}
    (h : HeaderEnded part ∨ Closes ['['] [']'] (headerLine part)) (more : List Char) :
    Text.between ['['] [']'] (headerLine (part ++ more)) =
      Text.between ['['] [']'] (headerLine part) :=
  @between_headerLine_append [] [] '[' ']' (by decide) (by decide) part h more

theorem matchText_append {part : List Char}
    (h : HeaderEnded part ∨ Closes ['{', ' '] [' ', '}'] (headerLine part)) (more : List Char) :
    Text.between ['{', ' '] [' ', '}'] (headerLine (part ++ more)) =
      Text.between ['{', ' '] [' ', '}'] (headerLine part) :=
  @between_headerLine_append ['{'] [' '] ' ' '}' (by decide) (by decide) part h more

/-- No part of a line that begins with a family name is a reply code. -/
theorem header?_of_headerLine {block rest : List Char} {digit : Char}
    (h : headerLine block = 'f' :: 'l' :: 'o' :: 'w' :: digit :: rest)
    (hdigit : digit = '4' ∨ digit = '6') : header? block = .ok (digit :: rest) := by
  have hcode : dropReplyCode ('f' :: 'l' :: 'o' :: 'w' :: digit :: rest) =
      'f' :: 'l' :: 'o' :: 'w' :: digit :: rest := by
    simp [dropReplyCode, show Text.isDecimalDigit 'f' = false by decide]
  have hfamily : Text.after? "flow".toList ('f' :: 'l' :: 'o' :: 'w' :: digit :: rest) =
      some (digit :: rest) :=
    Text.after?_append "flow".toList (digit :: rest)
  unfold header?
  dsimp only
  rw [← headerLine, h, hcode, hfamily]
  rcases hdigit with rfl | rfl <;> rfl

theorem exists_dropReplyCode (line : List Char) :
    ∃ code, line = code ++ dropReplyCode line ∧ '[' ∉ code ∧ '{' ∉ code := by
  unfold dropReplyCode
  split
  · rename_i a b c d mark rest
    split
    · rename_i hcode
      refine ⟨[a, b, c, d, mark], rfl, ?_, ?_⟩ <;>
      · intro hmem
        have hnot : Text.isDecimalDigit '[' = false ∧ Text.isDecimalDigit '{' = false := by decide
        rcases List.mem_append.mp (show _ ∈ [a, b, c, d] ++ [mark] from hmem) with hdigit | hmark
        · have hdigit := List.all_eq_true.mp hcode.1 _ hdigit
          simp [hnot] at hdigit
        · rw [← List.mem_singleton.mp hmark] at hcode
          exact absurd hcode.2 (by decide)
    · exact ⟨[], rfl, by simp, by simp⟩
  · exact ⟨[], rfl, by simp, by simp⟩

/-- The header is what follows a reply code and the family name in the first line. -/
theorem exists_headerLine_eq {block header : List Char} (h : header? block = .ok header) :
    ∃ lead, headerLine block = lead ++ header ∧ '[' ∉ lead ∧ '{' ∉ lead := by
  obtain ⟨code, hcode, hbracket, hbrace⟩ := exists_dropReplyCode (headerLine block)
  have hfamily : (Text.after? "flow".toList (dropReplyCode (headerLine block))).getD
      (dropReplyCode (headerLine block)) = header := by
    unfold header? at h
    dsimp only at h
    rw [← headerLine] at h
    split at h <;> first | exact Except.ok.inj h | cases h
  cases hafter : Text.after? "flow".toList (dropReplyCode (headerLine block)) with
  | none =>
      rw [hafter] at hfamily
      exact ⟨code, by rw [← hfamily]; exact hcode, hbracket, hbrace⟩
  | some rest =>
      rw [hafter] at hfamily
      have hflow := Text.eq_append_of_after? hafter
      refine ⟨code ++ "flow".toList, ?_, ?_, ?_⟩
      · rw [List.append_assoc, ← hfamily]
        exact hcode.trans (congrArg (code ++ ·) hflow)
      · simpa using hbracket
      · simpa using hbrace

theorem sessionGroup_eq {block header : List Char} (h : header? block = .ok header) :
    sessionGroup header = Text.between ['['] [']'] (headerLine block) := by
  obtain ⟨lead, hline, hbracket, -⟩ := exists_headerLine_eq h
  rw [hline, Text.between_append_of_not_mem hbracket, sessionGroup]

theorem matchGroup_eq {block header : List Char} (h : header? block = .ok header) :
    matchGroup header = Text.between ['{', ' '] [' ', '}'] (headerLine block) := by
  obtain ⟨lead, hline, -, hbrace⟩ := exists_headerLine_eq h
  rw [hline, Text.between_append_of_not_mem hbrace, matchGroup]

/-- A route is read from the header line and the community group of its block. -/
theorem parse_eq_ok_iff {block : List Char} {route : Route} :
    parse block = .ok route ↔
      (∃ header, header? block = .ok header) ∧
        session? (Text.between ['['] [']'] (headerLine block)) = .ok route.session ∧
        criteria? (Text.between ['{', ' '] [' ', '}'] (headerLine block)) = .ok route.criteria ∧
        community? (communityGroup block) = .ok (route.action, route.argument) := by
  unfold parse
  cases hheader : header? block with
  | error e => simp [bind, Except.bind]
  | ok header =>
      rw [← sessionGroup_eq hheader, ← matchGroup_eq hheader]
      cases hsession : session? (sessionGroup header) with
      | error e => simp [bind, Except.bind, hsession]
      | ok session =>
          cases hcriteria : criteria? (matchGroup header) with
          | error e => simp [bind, Except.bind, hsession, hcriteria]
          | ok criteria =>
              cases hcommunity : community? (communityGroup block) with
              | error e => simp [bind, Except.bind, hsession, hcriteria]
              | ok community =>
                  obtain ⟨action, argument⟩ := community
                  obtain ⟨session', criteria', action', argument'⟩ := route
                  simp [bind, Except.bind, hsession, hcriteria]

/-! ## The community group -/

/-- The label of the community group that a block is read from: the first one with a group. -/
def communityLabel? (block : List Char) : Option (List Char) :=
  communityLabels.find? fun label => !(Text.between label [')'] block).isEmpty

theorem communityGroup_eq (block : List Char) :
    communityGroup block =
      ((communityLabel? block).map fun label => Text.between label [')'] block).getD [] := by
  rw [communityGroup, List.find?_map]
  rfl

theorem exists_communityLabel? {block : List Char} {result : Action × Int}
    (h : community? (communityGroup block) = .ok result) :
    ∃ label, communityLabel? block = some label ∧
      communityGroup block = Text.between label [')'] block := by
  rw [communityGroup_eq] at h ⊢
  cases hlabel : communityLabel? block with
  | none =>
      rw [hlabel] at h
      cases h
  | some label => exact ⟨label, rfl, rfl⟩

/--
Whether a text, put behind a part of a block, begins or ends no group and separates no fields of a
community.
-/
structure Inert (tail : List Char) : Prop where
  opening : '(' ∉ tail
  closing : ')' ∉ tail
  comma : ',' ∉ tail
  blank : tail.head? ≠ some ' '

theorem inert_nil : Inert [] := by
  constructor <;> simp

theorem cut?_label_append {label tail : List Char} (hlabel : label ∈ communityLabels)
    (hinert : Inert tail) (part : List Char) :
    Text.cut? label (part ++ tail) =
      (Text.cut? label part).map fun found => (found.1, found.2 ++ tail) := by
  have hlast : ∃ front, label = front ++ ['('] := by
    simp only [communityLabels, List.mem_cons, List.not_mem_nil, or_false] at hlabel
    rcases hlabel with rfl | rfl
    · exact ⟨"BGP.ext_community: ".toList, rfl⟩
    · exact ⟨"bgp_ext_community: ".toList, rfl⟩
  obtain ⟨front, rfl⟩ := hlast
  exact Text.cut?_append_of_last_not_mem hinert.opening

theorem exists_fields_of_community? {group : List Char} {result : Action × Int}
    (h : community? group = .ok result) :
    ∃ kind codeAndRest code argument,
      Text.cut? ", ".toList group = some (kind, codeAndRest) ∧
      Text.cut? ", ".toList codeAndRest = some (code, argument) ∧
      actionAndArgument? (Text.trim code) (Text.trim argument) = .ok result := by
  have hmarker : ", ".toList ≠ [] := by decide
  unfold community? at h
  cases hfirst : Text.cut? ", ".toList group with
  | none =>
      rw [Text.splitOn_of_cut?_eq_none hmarker hfirst] at h
      cases h
  | some first =>
      obtain ⟨kind, codeAndRest⟩ := first
      rw [Text.splitOn_of_cut? hmarker hfirst] at h
      cases hsecond : Text.cut? ", ".toList codeAndRest with
      | none =>
          rw [Text.splitOn_of_cut?_eq_none hmarker hsecond] at h
          cases h
      | some second =>
          obtain ⟨code, argument⟩ := second
          rw [Text.splitOn_of_cut? hmarker hsecond] at h
          cases hthird : Text.cut? ", ".toList argument with
          | none =>
              rw [Text.splitOn_of_cut?_eq_none hmarker hthird] at h
              exact ⟨kind, codeAndRest, code, argument, rfl, hsecond, h⟩
          | some third =>
              rw [Text.splitOn_of_cut? hmarker hthird] at h
              have hrest := Text.splitOn_ne_nil ", ".toList third.2
              obtain ⟨piece, pieces, hpieces⟩ := List.exists_cons_of_ne_nil hrest
              rw [hpieces] at h
              cases h

/-- Two communities that begin alike are of one action if one of them ends without another field. -/
theorem action_eq_of_append {front tail more : List Char} (hinert : Inert tail)
    {action found : Action} {n m : Int} (h : community? (front ++ more) = .ok (action, n))
    (hfound : community? (front ++ tail) = .ok (found, m)) : found = action := by
  obtain ⟨kind, rest, code, argument, hkind, hcode, hread⟩ := exists_fields_of_community? hfound
  have hcut (text : List Char) : Text.cut? ", ".toList (text ++ tail) =
      (Text.cut? ", ".toList text).map fun found => (found.1, found.2 ++ tail) :=
    Text.cut?_append_of_pair hinert.comma hinert.blank
  rw [hcut] at hkind
  obtain ⟨⟨kind', rest'⟩, hfront, heq⟩ := Option.map_eq_some_iff.mp hkind
  cases heq
  rw [hcut] at hcode
  obtain ⟨⟨code', argument'⟩, hrest, heq⟩ := Option.map_eq_some_iff.mp hcode
  cases heq
  obtain ⟨kind₂, rest₂, code₂, argument₂, hkind₂, hcode₂, hread₂⟩ := exists_fields_of_community? h
  rw [Text.cut?_append hfront more] at hkind₂
  cases hkind₂
  rw [Text.cut?_append hrest more] at hcode₂
  cases hcode₂
  have hsame := (typeCode?_of_actionAndArgument? hread).symm.trans
    (typeCode?_of_actionAndArgument? hread₂)
  exact Action.code_inj.mp (Option.some.inj hsame)

/--
A community group is closed in a part of a block, or it has not begun there, or it goes on behind
the part.
-/
theorem between_label_cases {label tail : List Char} (hlabel : label ∈ communityLabels)
    (hinert : Inert tail) (part : List Char) :
    Closes label [')'] part ∨ Text.between label [')'] (part ++ tail) = [] ∨
      ∃ front, Text.between label [')'] (part ++ tail) = front ++ tail ∧
        ∀ rest, Text.between label [')'] (part ++ rest) = front ++ Text.upTo [')'] rest := by
  cases hcut : Text.cut? label part with
  | none =>
      refine .inr (.inl ?_)
      rw [Text.between, cut?_label_append hlabel hinert, hcut]
      rfl
  | some found =>
      obtain ⟨lead, front⟩ := found
      by_cases hmem : ')' ∈ front
      · have hsome : (Text.cut? [')'] front).isSome = true := by
          rw [Option.isSome_iff_ne_none]
          exact fun hnone => Text.cut?_singleton_eq_none_iff.mp hnone hmem
        exact .inl ⟨lead, front, hcut, hsome⟩
      · have hgoes (rest : List Char) :
            Text.between label [')'] (part ++ rest) = front ++ Text.upTo [')'] rest := by
          rw [Text.between, Text.cut?_append hcut]
          exact Text.upTo_append_of_not_mem hmem rest
        refine .inr (.inr ⟨front, ?_, hgoes⟩)
        rw [hgoes, Text.upTo_eq_self (Text.cut?_singleton_eq_none_iff.mpr hinert.closing)]

theorem mem_communityLabels {block label : List Char} (h : communityLabel? block = some label) :
    label ∈ communityLabels :=
  List.mem_of_find?_eq_some h

/--
A label whose group is closed in the common part is the one that both blocks are read from, unless
the part ends with the other label and the group is nothing but what follows.
-/
theorem communityLabel?_append {part rest tail label : List Char} (hinert : Inert tail)
    (hlabel : communityLabel? (part ++ rest) = some label) (hclosed : Closes label [')'] part) :
    communityLabel? (part ++ tail) = some label ∨
      communityGroup (part ++ tail) = tail ∧ tail ≠ [] := by
  obtain ⟨hgroup, before, after, hlabels, hempty⟩ := List.find?_eq_some_iff_append.mp hlabel
  have hbefore : ∀ other ∈ before, Text.between other [')'] (part ++ tail) = [] ∨
      Text.between other [')'] (part ++ tail) = tail := by
    intro other hother
    have hmem : other ∈ communityLabels := hlabels ▸ List.mem_append_left _ hother
    have hnil : Text.between other [')'] (part ++ rest) = [] := by
      simpa using hempty other hother
    rcases between_label_cases hmem hinert part with hsame | hnone | ⟨front, hfront, hgoes⟩
    · rw [Text.between_append_of_closes hsame] at hnil ⊢
      exact .inl hnil
    · exact .inl hnone
    · rw [hgoes, List.append_eq_nil_iff] at hnil
      rw [hfront, hnil.1]
      exact .inr rfl
  cases hfind : before.find? fun other => !(Text.between other [')'] (part ++ tail)).isEmpty with
  | none =>
      refine .inl ?_
      rw [Text.between_append_of_closes hclosed] at hgroup
      rw [communityLabel?, hlabels, List.find?_append, hfind, Option.none_or,
        List.find?_cons_of_pos]
      rw [Text.between_append_of_closes hclosed]
      exact hgroup
  | some other =>
      refine .inr ?_
      have hother : communityLabel? (part ++ tail) = some other := by
        rw [communityLabel?, hlabels, List.find?_append, hfind, Option.some_or]
      have hsome := List.find?_some hfind
      rw [communityGroup_eq, hother]
      rcases hbefore other (List.mem_of_find?_eq_some hfind) with hnil | htail
      · rw [hnil] at hsome
        cases hsome
      · refine ⟨htail, ?_⟩
        rintro rfl
        rw [htail] at hsome
        cases hsome

theorem communityGroup_append {part rest label : List Char}
    (hlabel : communityLabel? (part ++ rest) = some label) (hclosed : Closes label [')'] part) :
    communityGroup part = communityGroup (part ++ rest) := by
  have hpart := communityLabel?_append inert_nil hlabel hclosed
  rw [List.append_nil] at hpart
  have hsame := hpart.resolve_right fun h => h.2 rfl
  rw [communityGroup_eq, communityGroup_eq, hsame, hlabel]
  exact (Text.between_append_of_closes hclosed rest).symm

theorem community?_ne_ok_of_inert {tail : List Char} (hinert : Inert tail)
    {result : Action × Int} : community? tail ≠ .ok result := by
  intro h
  obtain ⟨kind, rest, -, -, hkind, -⟩ := exists_fields_of_community? h
  apply hinert.comma
  rw [Text.eq_append_of_cut? hkind]
  simp

/-! ## Blocks that begin alike -/

/--
What the routes of two blocks with a common part have in common: what is read from a group that is
whole in that part, and the action if both communities follow the same label.
-/
structure Shares (part block other : List Char) (route found : Route) : Prop where
  session : HeaderEnded part ∨ Closes ['['] [']'] (headerLine part) →
    found.session = route.session
  criteria : HeaderEnded part ∨ Closes ['{', ' '] [' ', '}'] (headerLine part) →
    found.criteria = route.criteria
  action : communityLabel? other = communityLabel? block → found.action = route.action
  community : ∀ label ∈ communityLabel? block, Closes label [')'] part →
    found.action = route.action ∧ found.argument = route.argument

theorem shares_of_inert {part rest tail : List Char} {route found : Route} (hinert : Inert tail)
    (h : parse (part ++ rest) = .ok route) (hfound : parse (part ++ tail) = .ok found) :
    Shares part (part ++ rest) (part ++ tail) route found := by
  obtain ⟨-, hsession, hcriteria, hcommunity⟩ := parse_eq_ok_iff.mp h
  obtain ⟨-, hsession', hcriteria', hcommunity'⟩ := parse_eq_ok_iff.mp hfound
  obtain ⟨label, hlabel, hgroup⟩ := exists_communityLabel? hcommunity
  refine ⟨?_, ?_, ?_, ?_⟩
  · intro hwhole
    rw [sessionText_append hwhole] at hsession hsession'
    exact Except.ok.inj (hsession'.symm.trans hsession)
  · intro hwhole
    rw [matchText_append hwhole] at hcriteria hcriteria'
    exact Except.ok.inj (hcriteria'.symm.trans hcriteria)
  · intro hsame
    obtain ⟨label', hlabel', hgroup'⟩ := exists_communityLabel? hcommunity'
    rw [hlabel', hlabel, Option.some.injEq] at hsame
    subst hsame
    rw [hgroup] at hcommunity
    rw [hgroup'] at hcommunity'
    rcases between_label_cases (mem_communityLabels hlabel) hinert part with
      hclosed | hnone | ⟨front, hfront, hgoes⟩
    · rw [Text.between_append_of_closes hclosed] at hcommunity hcommunity'
      exact (Prod.mk.inj (Except.ok.inj (hcommunity'.symm.trans hcommunity))).1
    · rw [hnone] at hcommunity'
      cases hcommunity'
    · rw [hgoes] at hcommunity
      rw [hfront] at hcommunity'
      exact action_eq_of_append hinert hcommunity hcommunity'
  · intro known hknown hclosed
    obtain rfl : label = known := Option.some.inj (hlabel.symm.trans hknown)
    rcases communityLabel?_append hinert hlabel hclosed with hsame | ⟨htail, -⟩
    · rw [communityGroup_eq, hsame] at hcommunity'
      rw [communityGroup_eq, hlabel] at hcommunity
      simp only [Option.map_some, Option.getD_some, Text.between_append_of_closes hclosed]
        at hcommunity hcommunity'
      exact Prod.mk.inj (Except.ok.inj (hcommunity'.symm.trans hcommunity))
    · rw [htail] at hcommunity'
      exact (community?_ne_ok_of_inert hinert hcommunity').elim

/-- A block that is cut behind its header line and its community is the block, as far as read. -/
theorem parse_part {part rest label : List Char} {route : Route}
    (h : parse (part ++ rest) = .ok route) (hheader : HeaderEnded part)
    (hlabel : communityLabel? (part ++ rest) = some label) (hclosed : Closes label [')'] part) :
    parse part = .ok route := by
  obtain ⟨⟨header, hok⟩, hsession, hcriteria, hcommunity⟩ := parse_eq_ok_iff.mp h
  have hline := headerLine_append hheader rest
  rw [← communityGroup_append hlabel hclosed] at hcommunity
  rw [hline] at hsession hcriteria
  refine parse_eq_ok_iff.mpr ⟨⟨header, ?_⟩, hsession, hcriteria, hcommunity⟩
  unfold header? at hok ⊢
  unfold headerLine at hline
  rwa [hline] at hok

end Route

end FlowFence
