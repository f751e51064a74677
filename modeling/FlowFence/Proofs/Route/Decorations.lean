import FlowFence.Proofs.Route.Division

/-!
# Decorated blocks

A block may be written with the name of the family or with its digit alone, with a reply code in
front, and with blanks in front of all. The header is read from the digit on, and no community can
begin in what stands before it, so a block gives the same route or the same error however it is
decorated.
-/

namespace FlowFence

theorem Text.isDecimalDigit_of_isBlank {c : Char} (h : isBlank c = true) :
    isDecimalDigit c = false := by
  have hcodes : ∀ n ∈ [0x09, 0x0A, 0x0B, 0x0C, 0x0D, 0x20, 0x85, 0xA0, 0x1680, 0x2000, 0x2001,
      0x2002, 0x2003, 0x2004, 0x2005, 0x2006, 0x2007, 0x2008, 0x2009, 0x200A, 0x2028, 0x2029,
      0x202F, 0x205F, 0x3000], isDecimalDigit (Char.ofNat n) = false :=
    List.all_iff_forall_prop.mp (by decide)
  rw [← Char.ofNat_toNat c]
  refine hcodes c.toNat ?_
  simp only [isBlank, Bool.or_eq_true, Bool.and_eq_true, decide_eq_true_eq, beq_iff_eq] at h
  simp only [List.mem_cons, List.not_mem_nil, or_false]
  omega

namespace Route

variable {front code name body line : List Char} {digit : Char}

/-- Whether a text is a reply code: four decimal digits of any script, and a hyphen or a space. -/
def IsReplyCode (code : List Char) : Prop :=
  ∃ a b c d mark, code = [a, b, c, d, mark] ∧
    (∀ digit ∈ [a, b, c, d], Text.isDecimalDigit digit = true) ∧ (mark = '-' ∨ mark = ' ')

/--
Whether a text may stand in front of the family digit of a block: blanks, then a reply code or none,
then the name of the family or nothing.
-/
def IsDecoration (front : List Char) : Prop :=
  ∃ blanks code name, front = blanks ++ code ++ name ∧
    (∀ c ∈ blanks, Text.isBlank c = true) ∧ (code = [] ∨ IsReplyCode code) ∧
      (name = [] ∨ name = "flow".toList)

/-- Whether a text goes on after the name of a family in a marker: with a digit, blanks, a brace. -/
def IsBody (body : List Char) : Prop :=
  ∃ digit blanks rest, body = digit :: blanks ++ '{' :: rest ∧ (digit = '4' ∨ digit = '6') ∧
    ∀ c ∈ blanks, Text.isBlank c = true

theorem isBody_iff : IsBody body ↔ Dump.startsBlock ("flow".toList ++ body) = true := by
  rw [Dump.startsBlock_iff]
  simp [IsBody]

/-! ## The header -/

theorem dropReplyCode_append (h : IsReplyCode code) (line : List Char) :
    dropReplyCode (code ++ line) = line := by
  obtain ⟨a, b, c, d, mark, rfl, hdigits, hmark⟩ := h
  have hcode : [a, b, c, d].all Text.isDecimalDigit = true ∧ (mark = '-' ∨ mark = ' ') :=
    ⟨List.all_eq_true.mpr hdigits, hmark⟩
  exact if_pos hcode

/-- A line is no reply code if one of its first two characters is no digit. -/
theorem dropReplyCode_eq_self {first second : Char} {rest : List Char}
    (h : Text.isDecimalDigit first = false ∨ Text.isDecimalDigit second = false) :
    dropReplyCode (first :: second :: rest) = first :: second :: rest := by
  unfold dropReplyCode
  split
  · rename_i a b c d mark more heq
    obtain ⟨rfl, htail⟩ := List.cons.inj heq
    obtain ⟨rfl, -⟩ := List.cons.inj htail
    rcases h with h | h <;> simp [h]
  · rfl

theorem mem_code (h : IsReplyCode code) {c : Char} (hc : c ∈ code) :
    Text.isDecimalDigit c = true ∨ c = '-' ∨ c = ' ' := by
  obtain ⟨a, b, d, e, mark, rfl, hdigits, hmark⟩ := h
  rcases List.mem_append.mp (show c ∈ [a, b, d, e] ++ [mark] from hc) with hdigit | hlast
  · exact .inl (hdigits c hdigit)
  · rw [List.mem_singleton.mp hlast]
    exact .inr hmark

/-- What is left when the blanks in front of a block are taken off. -/
theorem trimStart_decorated {blanks : List Char} (hblanks : ∀ c ∈ blanks, Text.isBlank c = true)
    (hcode : code = [] ∨ IsReplyCode code) (hname : name = [] ∨ name = "flow".toList)
    (hbody : IsBody body) :
    Text.trimStart (blanks ++ code ++ name ++ body) = code ++ name ++ body := by
  have hfirst : ∃ c rest, code ++ name ++ body = c :: rest ∧ Text.isBlank c = false := by
    rcases hcode with rfl | ⟨a, b, c, d, mark, rfl, hdigits, -⟩
    · rcases hname with rfl | rfl
      · obtain ⟨digit, blanks, rest, rfl, hdigit, -⟩ := hbody
        exact ⟨digit, _, rfl, by rcases hdigit with rfl | rfl <;> rfl⟩
      · exact ⟨'f', _, rfl, rfl⟩
    · refine ⟨a, _, rfl, ?_⟩
      cases hblank : Text.isBlank a with
      | false => rfl
      | true =>
          have hnone := Text.isDecimalDigit_of_isBlank hblank
          rw [hdigits a List.mem_cons_self] at hnone
          cases hnone
  obtain ⟨c, rest, hfirst, hc⟩ := hfirst
  rw [Text.trimStart, List.append_assoc, List.append_assoc,
    List.dropWhile_append_of_pos hblanks, ← List.append_assoc, hfirst]
  simp [hc]

/-- The line that the digit of a block begins is the digit, and no digit follows it. -/
theorem exists_firstLine_body (h : IsBody body) :
    ∃ digit rest, Text.firstLine body = digit :: rest ∧ (digit = '4' ∨ digit = '6') ∧
      ∀ c ∈ rest.head?, Text.isDecimalDigit c = false := by
  obtain ⟨digit, blanks, rest, rfl, hdigit, hblanks⟩ := h
  obtain ⟨tail, hline⟩ := @Text.exists_firstLine_eq_append [digit]
    (by rcases hdigit with rfl | rfl <;> decide) (by rcases hdigit with rfl | rfl <;> decide)
    (blanks ++ '{' :: rest)
  rw [List.singleton_append, List.singleton_append] at hline
  refine ⟨digit, tail, hline, hdigit, ?_⟩
  intro c hc
  have hfront := Text.firstLine_isFront (digit :: (blanks ++ '{' :: rest))
  rw [hline, List.cons_prefix_cons] at hfront
  obtain ⟨more, hmore⟩ := hfront.2
  have hhead : c ∈ (blanks ++ '{' :: rest).head? := by
    rw [← hmore, List.head?_append, Option.mem_def.mp hc]
    rfl
  cases blanks with
  | nil =>
      cases hhead
      rfl
  | cons blank blanks =>
      cases hhead
      exact Text.isDecimalDigit_of_isBlank (hblanks _ List.mem_cons_self)

theorem firstLine_decorated (hcode : code = [] ∨ IsReplyCode code)
    (hname : name = [] ∨ name = "flow".toList) (hbody : IsBody body) :
    Text.firstLine (code ++ name ++ body) = code ++ (name ++ Text.firstLine body) := by
  have hfeed : '\n' ∉ code ++ name := by
    intro hmem
    rcases List.mem_append.mp hmem with hcodeMem | hnameMem
    · rcases hcode with rfl | hcode
      · cases hcodeMem
      · exact absurd (mem_code hcode hcodeMem) (by decide)
    · rcases hname with rfl | rfl
      · cases hnameMem
      · exact absurd hnameMem (by decide)
  obtain ⟨digit, blanks, rest, rfl, hfamily, -⟩ := hbody
  have hdigit : digit ≠ '\n' := by
    rcases hfamily with rfl | rfl <;> decide
  rw [List.cons_append, Text.firstLine_append_cons hfeed hdigit, List.append_assoc]

/-- No part of a line that begins with a family name or its digit is a reply code. -/
theorem dropReplyCode_name (hname : name = [] ∨ name = "flow".toList) {rest : List Char}
    (hsecond : ∀ c ∈ rest.head?, Text.isDecimalDigit c = false) :
    dropReplyCode (name ++ digit :: rest) = name ++ digit :: rest := by
  rcases hname with rfl | rfl
  · cases rest with
    | nil => rfl
    | cons second rest => exact dropReplyCode_eq_self (.inr (hsecond second rfl))
  · exact dropReplyCode_eq_self (.inl (by decide))

theorem after?_name (hname : name = [] ∨ name = "flow".toList) {rest : List Char}
    (hdigit : digit = '4' ∨ digit = '6') :
    (Text.after? "flow".toList (name ++ digit :: rest)).getD (name ++ digit :: rest) =
      digit :: rest := by
  rcases hname with rfl | rfl
  · rcases hdigit with rfl | rfl <;> rfl
  · rw [Text.after?_append, Option.getD_some]

theorem header?_decorated (hfront : IsDecoration front) (hbody : IsBody body) :
    header? (front ++ body) = .ok (Text.firstLine body) := by
  obtain ⟨blanks, code, name, rfl, hblanks, hcode, hname⟩ := hfront
  obtain ⟨digit, rest, hline, hdigit, hsecond⟩ := exists_firstLine_body hbody
  have hfirst := firstLine_decorated hcode hname hbody
  rw [hline] at hfirst
  have hcoded : dropReplyCode (code ++ (name ++ digit :: rest)) = name ++ digit :: rest := by
    rcases hcode with rfl | hcode
    · exact dropReplyCode_name hname hsecond
    · exact dropReplyCode_append hcode _
  unfold header?
  dsimp only
  rw [trimStart_decorated hblanks hcode hname hbody, hfirst, hcoded, after?_name hname hdigit,
    hline]
  rcases hdigit with rfl | rfl <;> rfl

/-! ## The community -/

theorem not_mem_decoration (hfront : IsDecoration front) {c : Char}
    (hblank : Text.isBlank c = false) (hdigit : Text.isDecimalDigit c = false) (hmark : c ≠ '-')
    (hname : c ∉ "flow".toList) : c ∉ front := by
  obtain ⟨blanks, code, name, rfl, hblanks, hcode, hnamed⟩ := hfront
  intro hmem
  rw [List.mem_append, List.mem_append] at hmem
  rcases hmem with (hblankMem | hcodeMem) | hnameMem
  · rw [hblanks c hblankMem] at hblank
    cases hblank
  · rcases hcode with rfl | hcode
    · cases hcodeMem
    · rcases mem_code hcode hcodeMem with hfound | rfl | rfl
      · rw [hfound] at hdigit
        cases hdigit
      · exact hmark rfl
      · cases hblank
  · rcases hnamed with rfl | rfl
    · cases hnameMem
    · exact hname hnameMem

/-- No label of a community begins in a decoration, so what is read behind it is the same. -/
theorem communityGroup_decorated (hfront : IsDecoration front) (body : List Char) :
    communityGroup (front ++ body) = communityGroup body := by
  have hupper : 'B' ∉ front :=
    not_mem_decoration hfront (by decide) (by decide) (by decide) (by decide)
  have hlower : 'b' ∉ front :=
    not_mem_decoration hfront (by decide) (by decide) (by decide) (by decide)
  have hbetween : ∀ label ∈ communityLabels,
      Text.between label [')'] (front ++ body) = Text.between label [')'] body := by
    intro label hlabel
    simp only [communityLabels, List.mem_cons, List.not_mem_nil, or_false] at hlabel
    rcases hlabel with rfl | rfl
    · exact Text.between_append_of_not_mem hupper
    · exact Text.between_append_of_not_mem hlower
  rw [communityGroup, communityGroup, List.map_congr_left hbetween]

/-! ## Blocks -/

theorem parse_decorated (hfront : IsDecoration front) (hbody : IsBody body) :
    parse (front ++ body) = (do
      let session ← session? (sessionGroup (Text.firstLine body))
      let criteria ← criteria? (matchGroup (Text.firstLine body))
      let (action, argument) ← community? (communityGroup body)
      .ok ⟨session, criteria, action, argument⟩) := by
  rw [parse, header?_decorated hfront hbody, communityGroup_decorated hfront]
  rfl

theorem isDecoration_name : IsDecoration "flow".toList :=
  ⟨[], [], "flow".toList, rfl, by simp, .inl rfl, .inr rfl⟩

/--
A block that begins with a marker gives the same route or the same error without the name of the
family, with a reply code in front of its name or of its digit, and with any blanks in front of
these.
-/
theorem decorations_change_nothing (h : Dump.startsBlock ("flow".toList ++ body) = true)
    (hfront : IsDecoration front) : parse (front ++ body) = parse ("flow".toList ++ body) := by
  have hbody : IsBody body := isBody_iff.mpr h
  rw [parse_decorated hfront hbody, parse_decorated isDecoration_name hbody]

def brokenBody : List Char :=
  "6\r\n\x7b dport 53; \x7d [rs1 2024-05-01 from 192.0.2.1]\n".toList

def portBody : List Char :=
  ("4\u2003\x7b dport 53; \x7d [rs1 2024-05-01 from 192.0.2.1]\n" ++
    "\tBGP.ext_community: (generic, 0x80060000, 0x0)\n").toList

/-- A reply code in digits of another script, behind blanks that end a line. -/
theorem foreignCode_changes_nothing :
    let front := "\r\n\u3000\u0661\u0662\u0663\u0664 ".toList
    IsDecoration front ∧ IsDecoration (front ++ "flow".toList) ∧
      Dump.startsBlock ("flow".toList ++ portBody) = true ∧
      Dump.startsBlock ("flow".toList ++ brokenBody) = true ∧
      parse (front ++ portBody) =
        .ok ⟨⟨"rs1", .v4 0xC0000201, "2024-05-01"⟩, { destinationPort := 53 }, .rateBytes, 0⟩ ∧
      parse (front ++ "flow".toList ++ brokenBody) = .error (.session (.wordCount 0)) := by
  intro front
  have hblanks : ∀ c ∈ "\r\n\u3000".toList, Text.isBlank c = true :=
    List.all_eq_true.mp (by decide)
  have hcode : IsReplyCode "\u0661\u0662\u0663\u0664 ".toList :=
    ⟨_, _, _, _, _, rfl, List.all_eq_true.mp (by decide), .inr rfl⟩
  have hfront : IsDecoration front := ⟨_, _, [], by decide, hblanks, .inr hcode, .inl rfl⟩
  have hnamed : IsDecoration (front ++ "flow".toList) :=
    ⟨_, _, "flow".toList, by decide, hblanks, .inr hcode, .inr rfl⟩
  have hport : Dump.startsBlock ("flow".toList ++ portBody) = true := by decide
  have hbroken : Dump.startsBlock ("flow".toList ++ brokenBody) = true := by decide
  refine ⟨hfront, hnamed, hport, hbroken, ?_, ?_⟩
  · rw [decorations_change_nothing hport hfront]
    decide +kernel
  · rw [decorations_change_nothing hbroken hnamed]
    decide +kernel

end Route

end FlowFence
