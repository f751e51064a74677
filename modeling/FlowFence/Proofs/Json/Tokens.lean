import FlowFence.Json.Written
import FlowFence.Proofs.Json.Compact
import FlowFence.Proofs.Text.Positional

/-!
# Tokens of JSON

White space, texts and numbers as they are written, said without the reader. What the reader takes
off the front of a source is a token, and every token is taken off if what follows it does not make
it longer.
-/

namespace FlowFence

namespace Json

variable {text source rest after : List Char}

/-! ## White space -/

def spaces : List Char :=
  [' ', '\n', '\t', '\r']

def IsSpace (text : List Char) : Prop :=
  ∀ c ∈ text, c ∈ spaces

theorem mem_spaces_iff {c : Char} :
    c ∈ spaces ↔ (c == ' ' || c == '\n' || c == '\t' || c == '\r') = true := by
  simp [spaces, or_assoc]

theorem isSpace_nil : IsSpace [] :=
  List.forall_mem_nil _

theorem skipSpace_append {space : List Char} (h : IsSpace space) (rest : List Char) :
    skipSpace (space ++ rest) = skipSpace rest :=
  List.dropWhile_append_of_pos fun c hc => mem_spaces_iff.mp (h c hc)

theorem skipSpace_cons {c : Char} (h : c ∉ spaces) (rest : List Char) :
    skipSpace (c :: rest) = c :: rest := by
  rw [mem_spaces_iff, Bool.not_eq_true] at h
  rw [skipSpace, List.dropWhile_cons, h]
  rfl

theorem exists_eq_append_skipSpace (source : List Char) :
    ∃ space, IsSpace space ∧ source = space ++ skipSpace source := by
  refine ⟨_, fun c hc => mem_spaces_iff.mpr ?_, List.takeWhile_append_dropWhile.symm⟩
  exact List.all_eq_true.mp List.all_takeWhile c hc

/-! ## Texts -/

def escapeLetters : List (Char × Char) :=
  [('"', '"'), ('\\', '\\'), ('/', '/'), ('b', '\x08'), ('f', '\x0C'), ('n', '\n'), ('r', '\r'),
    ('t', '\t')]

/--
Whether a piece of a text writes a unit: a character that is neither a control character nor one of
the two marks, an escape letter, or four hexadecimal digits for a code unit.
-/
inductive IsUnit : List Char → TextUnit → Prop where
  | plain {c : Char} (printed : 0x20 ≤ c.toNat) (quote : c ≠ '"') (backslash : c ≠ '\\') :
      IsUnit [c] (.char c)
  | letter {letter c : Char} (named : (letter, c) ∈ escapeLetters) :
      IsUnit ['\\', letter] (.char c)
  | code {digits : List Char} {unit : Nat} (four : digits.length = 4)
      (value : Text.IsNumeral 16 digits unit) : IsUnit ('\\' :: 'u' :: digits) (.code unit)

inductive IsUnits : List Char → List TextUnit → Prop where
  | nil : IsUnits [] []
  | cons {piece text : List Char} {unit : TextUnit} {units : List TextUnit}
      (first : IsUnit piece unit) (others : IsUnits text units) :
      IsUnits (piece ++ text) (unit :: units)

theorem escapeLetter?_eq_some_iff {letter c : Char} :
    escapeLetter? letter = some c ↔ (letter, c) ∈ escapeLetters := by
  unfold escapeLetter?
  split <;> simp_all [escapeLetters, eq_comm]

theorem readUnits_append {piece : List Char} {unit : TextUnit} (h : IsUnit piece unit)
    (rest : List Char) :
    readUnits (piece ++ rest) =
      (readUnits rest).map fun read => (unit :: read.1, read.2) := by
  cases h with
  | plain printed quote backslash => simp [readUnits, backslash, Nat.not_lt.mpr printed]
  | @letter letter c named =>
      have hall : ∀ pair ∈ escapeLetters, pair.1 ≠ 'u' := by decide
      have hletter : letter ≠ 'u' := hall _ named
      have hread := escapeLetter?_eq_some_iff.mpr named
      cases hrest : readUnits rest <;> simp [readUnits, hletter, hread, hrest]
  | @code _ unit four value =>
      obtain ⟨a, b, c, d, rfl⟩ := List.length_eq_four.mp four
      have hread : codeUnit? a b c d = some unit := (Text.numeral?_eq_some_iff (by decide)).mpr value
      cases hrest : readUnits rest <;> simp [readUnits, hread, hrest]

theorem readUnits_of_isUnits {units : List TextUnit} (h : IsUnits text units) (after : List Char) :
    readUnits (text ++ '"' :: after) = some (units, after) := by
  induction h with
  | nil => rfl
  | cons first others ih => rw [List.append_assoc, readUnits_append first, ih, Option.map_some]

theorem exists_of_readUnits {units : List TextUnit} (h : readUnits source = some (units, after)) :
    ∃ text, IsUnits text units ∧ source = text ++ '"' :: after := by
  fun_induction readUnits source generalizing units after with
  | case1 => cases h
  | case2 rest =>
      cases h
      exact ⟨[], .nil, rfl⟩
  | case3 a b c d rest unit units after hread hcode ih =>
      cases h
      obtain ⟨text, hunits, rfl⟩ := ih hread
      have hvalue := (Text.numeral?_eq_some_iff (by decide)).mp hcode
      exact ⟨_, .cons (.code rfl hvalue) hunits, rfl⟩
  | case4 => cases h
  | case5 letter rest hletter c units after hread hescape ih =>
      cases h
      obtain ⟨text, hunits, rfl⟩ := ih hread
      exact ⟨_, .cons (.letter (escapeLetter?_eq_some_iff.mp hescape)) hunits, rfl⟩
  | case6 => cases h
  | case7 => cases h
  | case8 c rest hquote hcode hletter hprinted ih =>
      obtain ⟨⟨others, _⟩, hread, heq⟩ := Option.map_eq_some_iff.mp h
      cases heq
      obtain ⟨text, hunits, rfl⟩ := ih hread
      have hbackslash : c ≠ '\\' := by
        intro hc
        cases text <;> exact hletter _ _ hc rfl
      exact ⟨_, .cons (.plain (Nat.not_lt.mp hprinted) hquote hbackslash) hunits, rfl⟩

/-! ## Numbers -/

def IsDigits (text : List Char) : Prop :=
  text ≠ [] ∧ ∀ c ∈ text, Text.isDigit c = true

/-- Whether a text is what stands before the point of a number: no zero leads further digits. -/
def IsWhole (text : List Char) : Prop :=
  text = ['0'] ∨ IsDigits text ∧ text.head? ≠ some '0'

inductive IsFraction : List Char → List Char → Prop where
  | absent : IsFraction [] []
  | present {digits : List Char} (each : IsDigits digits) : IsFraction ('.' :: digits) digits

inductive IsExponent : List Char → Option ℤ → Prop where
  | absent : IsExponent [] none
  | positive {mark : Char} {sign digits : List Char} {n : Nat} (letter : mark = 'e' ∨ mark = 'E')
      (plus : sign = [] ∨ sign = ['+']) (value : Text.IsNumeral 10 digits n) :
      IsExponent (mark :: (sign ++ digits)) (some n)
  | negative {mark : Char} {digits : List Char} {n : Nat} (letter : mark = 'e' ∨ mark = 'E')
      (value : Text.IsNumeral 10 digits n) : IsExponent (mark :: '-' :: digits) (some (-n))

inductive IsNumber : List Char → Written → Prop where
  | mk (negative : Bool) {whole fractionText fraction exponentText : List Char} {exponent : Option ℤ}
      (front : IsWhole whole) (middle : IsFraction fractionText fraction)
      (back : IsExponent exponentText exponent) :
      IsNumber ((if negative then ['-'] else []) ++ (whole ++ (fractionText ++ exponentText)))
        (.number negative whole fraction exponent)

/-- Whether a text does not go on with what could belong to a number in front of it. -/
def EndsNumber (text : List Char) : Prop :=
  ∀ c ∈ text.head?, Text.isDigit c = false ∧ c ≠ '.' ∧ c ≠ 'e' ∧ c ≠ 'E'

theorem EndsNumber.noDigit (h : EndsNumber rest) : NoDigit rest :=
  fun c hc => (h c hc).1

theorem isDigits_of_isNumeral {n : Nat} (h : Text.IsNumeral 10 text n) : IsDigits text := by
  obtain ⟨hne, digits, hdigits, -⟩ := h
  have hall : ∀ d < 10, Text.isDigit (Nat.digitChar d) = true := by decide
  refine ⟨hne, ?_⟩
  clear hne
  induction hdigits with
  | nil => exact List.forall_mem_nil _
  | cons hdigit _ ih =>
      obtain ⟨hlt, rfl⟩ := Text.isDigitOf_ten_iff.mp hdigit
      exact List.forall_mem_cons.mpr ⟨hall _ hlt, ih⟩

theorem takeDigits_append (h : IsDigits text) (hrest : NoDigit rest) :
    (text ++ rest).takeWhile Text.isDigit = text ∧ (text ++ rest).dropWhile Text.isDigit = rest := by
  have hnone : rest.takeWhile Text.isDigit = [] ∧ rest.dropWhile Text.isDigit = rest := by
    cases rest with
    | nil => exact ⟨rfl, rfl⟩
    | cons c rest => simp [hrest c rfl]
  rw [List.takeWhile_append_of_pos h.2, List.dropWhile_append_of_pos h.2, hnone.1, hnone.2,
    List.append_nil]
  exact ⟨rfl, rfl⟩

theorem isDigits_takeWhile (h : source.takeWhile Text.isDigit ≠ []) :
    IsDigits (source.takeWhile Text.isDigit) :=
  ⟨h, List.all_eq_true.mp List.all_takeWhile⟩

theorem readWhole?_append (h : IsWhole text) (hrest : NoDigit rest) :
    readWhole? (text ++ rest) = some (text, rest) := by
  rcases h with rfl | ⟨hdigits, hlead⟩
  · rfl
  · obtain ⟨htake, hdrop⟩ := takeDigits_append hdigits hrest
    unfold readWhole?
    split
    · rename_i heq
      obtain ⟨c, tail, rfl⟩ := List.exists_cons_of_ne_nil hdigits.1
      rw [List.cons_append] at heq
      rw [(List.cons.inj heq).1] at hlead
      exact absurd rfl hlead
    · simp [htake, hdrop, hdigits.1]

theorem isWhole_of_readWhole? (h : readWhole? source = some (text, rest)) :
    IsWhole text ∧ source = text ++ rest := by
  unfold readWhole? at h
  split at h
  · cases h
    exact ⟨.inl rfl, rfl⟩
  · rename_i hlead
    dsimp only at h
    split at h
    · cases h
    · rename_i hne
      cases h
      have hdigits : IsDigits (source.takeWhile Text.isDigit) := isDigits_takeWhile (by simpa using hne)
      refine ⟨.inr ⟨hdigits, fun hzero => ?_⟩, List.takeWhile_append_dropWhile.symm⟩
      rw [List.head?_takeWhile, Option.filter_eq_some_iff] at hzero
      obtain ⟨tail, rfl⟩ := List.head?_eq_some_iff.mp hzero.1
      exact hlead tail rfl

theorem readFraction?_append {digits : List Char} (h : IsFraction text digits)
    (hrest : NoDigit rest) (hpoint : rest.head? ≠ some '.') :
    readFraction? (text ++ rest) = some (digits, rest) := by
  cases h with
  | absent =>
      unfold readFraction?
      split
      · rename_i heq
        rw [List.nil_append] at heq
        rw [heq] at hpoint
        exact absurd rfl hpoint
      · rfl
  | present each =>
      obtain ⟨htake, hdrop⟩ := takeDigits_append each hrest
      simp [readFraction?, htake, hdrop, each.1]

theorem isFraction_of_readFraction? {digits : List Char}
    (h : readFraction? source = some (digits, rest)) :
    ∃ text, IsFraction text digits ∧ source = text ++ rest := by
  unfold readFraction? at h
  split at h
  · rename_i tail
    dsimp only at h
    split at h
    · cases h
    · rename_i hne
      cases h
      have hdigits : IsDigits (tail.takeWhile Text.isDigit) := isDigits_takeWhile (by simpa using hne)
      refine ⟨_, .present hdigits, ?_⟩
      rw [List.cons_append, List.takeWhile_append_dropWhile]
  · cases h
    exact ⟨[], .absent, rfl⟩

theorem readExponent?_cons {mark : Char} (letter : mark = 'e' ∨ mark = 'E') {negative : Bool}
    {front : List Char} (h : Text.takeSign source = (negative, front)) :
    readExponent? (mark :: source) =
      (Text.numeral? 10 (front.takeWhile Text.isDigit)).map fun n : Nat =>
        (some (if negative then -(n : ℤ) else n), front.dropWhile Text.isDigit) := by
  rw [readExponent?, if_pos letter, h]
  dsimp only
  cases Text.numeral? 10 (front.takeWhile Text.isDigit) <;> rfl

theorem takeSign_digits (h : IsDigits text) (rest : List Char) :
    Text.takeSign (text ++ rest) = (false, text ++ rest) := by
  obtain ⟨c, tail, rfl⟩ := List.exists_cons_of_ne_nil h.1
  have hdigit := h.2 c List.mem_cons_self
  unfold Text.takeSign
  split
  · rename_i heq
    rw [(List.cons.inj heq).1] at hdigit
    cases hdigit
  · rename_i heq
    rw [(List.cons.inj heq).1] at hdigit
    cases hdigit
  · rfl

theorem readExponent?_append {exponent : Option ℤ} (h : IsExponent text exponent)
    (hrest : EndsNumber rest) : readExponent? (text ++ rest) = some (exponent, rest) := by
  have hread {mark : Char} (letter : mark = 'e' ∨ mark = 'E') {negative : Bool}
      {source digits : List Char} {n : Nat} (value : Text.IsNumeral 10 digits n)
      (hsign : Text.takeSign source = (negative, digits ++ rest)) :
      readExponent? (mark :: source) = some (some (if negative then -(n : ℤ) else n), rest) := by
    obtain ⟨htake, hdrop⟩ := takeDigits_append (isDigits_of_isNumeral value) hrest.noDigit
    rw [readExponent?_cons letter hsign, htake, hdrop,
      (Text.numeral?_eq_some_iff (by decide)).mpr value]
    rfl
  cases h with
  | absent =>
      cases rest with
      | nil => rfl
      | cons c rest =>
          obtain ⟨-, -, hsmall, hcapital⟩ := hrest c rfl
          simp [readExponent?, hsmall, hcapital]
  | @positive _ _ digits _ letter plus value =>
      have hplus : Text.takeSign ('+' :: (digits ++ rest)) = (false, digits ++ rest) := rfl
      rcases plus with rfl | rfl
      · exact hread letter value (takeSign_digits (isDigits_of_isNumeral value) rest)
      · exact hread letter value hplus
  | @negative _ digits _ letter value =>
      have hminus : Text.takeSign ('-' :: (digits ++ rest)) = (true, digits ++ rest) := rfl
      exact hread letter value hminus

theorem isExponent_of_readExponent? {exponent : Option ℤ}
    (h : readExponent? source = some (exponent, rest)) :
    ∃ text, IsExponent text exponent ∧ source = text ++ rest := by
  cases source with
  | nil =>
      cases h
      exact ⟨[], .absent, rfl⟩
  | cons mark tail =>
      by_cases letter : mark = 'e' ∨ mark = 'E'
      · cases hsign : Text.takeSign tail with
        | mk negative front =>
            rw [readExponent?_cons letter hsign] at h
            obtain ⟨n, hn, heq⟩ := Option.map_eq_some_iff.mp h
            cases heq
            have value := (Text.numeral?_eq_some_iff (by decide)).mp hn
            have hfront : front.takeWhile Text.isDigit ++ front.dropWhile Text.isDigit = front :=
              List.takeWhile_append_dropWhile
            unfold Text.takeSign at hsign
            split at hsign
            all_goals cases hsign
            · exact ⟨_, .negative letter value, by simp [hfront]⟩
            · exact ⟨_, .positive letter (.inr rfl) value, by simp [hfront]⟩
            · exact ⟨_, .positive letter (.inl rfl) value, by simp [hfront]⟩
      · rw [readExponent?, if_neg letter] at h
        cases h
        exact ⟨[], .absent, rfl⟩

theorem exists_isWhole_eq_cons (h : IsWhole text) :
    ∃ c tail, text = c :: tail ∧ Text.isDigit c = true := by
  rcases h with rfl | ⟨hdigits, -⟩
  · exact ⟨'0', [], rfl, rfl⟩
  · obtain ⟨c, tail, rfl⟩ := List.exists_cons_of_ne_nil hdigits.1
    exact ⟨c, tail, rfl, hdigits.2 c List.mem_cons_self⟩

/-- The exponent and what follows it do not make the digits of a fraction longer. -/
theorem ends_fraction {exponent : Option ℤ} (h : IsExponent text exponent)
    (hrest : EndsNumber rest) :
    NoDigit (text ++ rest) ∧ (text ++ rest).head? ≠ some '.' := by
  have hmark {mark : Char} (letter : mark = 'e' ∨ mark = 'E') (tail : List Char) :
      NoDigit (mark :: tail) ∧ (mark :: tail).head? ≠ some '.' := by
    rcases letter with rfl | rfl <;> exact ⟨by rintro _ ⟨⟩; rfl, by simp⟩
  cases h with
  | absent => exact ⟨hrest.noDigit, fun hpoint => (hrest '.' hpoint).2.1 rfl⟩
  | positive letter plus value => exact hmark letter _
  | negative letter value => exact hmark letter _

/-- The fraction and what follows it do not make the digits before the point longer. -/
theorem noDigit_fraction_append {digits : List Char} (h : IsFraction text digits)
    (hrest : NoDigit rest) : NoDigit (text ++ rest) := by
  cases h with
  | absent => exact hrest
  | present each =>
      rintro _ ⟨⟩
      rfl

theorem readNumber?_append {value : Written} (h : IsNumber text value) (hrest : EndsNumber rest) :
    readNumber? (text ++ rest) = some (value, rest) := by
  cases h with
  | mk negative front middle back =>
      obtain ⟨hdigit, hpoint⟩ := ends_fraction back hrest
      have hwhole := readWhole?_append front (noDigit_fraction_append middle hdigit)
      have hfraction := readFraction?_append middle hdigit hpoint
      have hexponent := readExponent?_append back hrest
      cases negative with
      | true => simp [readNumber?, hwhole, hfraction, hexponent]
      | false =>
          obtain ⟨c, tail, rfl, hlead⟩ := exists_isWhole_eq_cons front
          have hsign : c ≠ '-' := by
            rintro rfl
            cases hlead
          rw [List.cons_append] at hwhole
          simp [readNumber?, hsign, hwhole, hfraction, hexponent]

theorem isNumber_of_readNumber? {value : Written} (h : readNumber? source = some (value, rest)) :
    ∃ text, IsNumber text value ∧ source = text ++ rest := by
  unfold readNumber? at h
  simp only [Option.bind_eq_bind, Option.bind_eq_some_iff, Prod.exists] at h
  split at h
  all_goals
    obtain ⟨whole, _, hwhole, fraction, _, hfraction, exponent, _, hexponent, heq⟩ := h
    cases heq
    obtain ⟨front, hsource⟩ := isWhole_of_readWhole? hwhole
    dsimp only at hsource
    obtain ⟨fractionText, middle, rfl⟩ := isFraction_of_readFraction? hfraction
    obtain ⟨exponentText, back, rfl⟩ := isExponent_of_readExponent? hexponent
  · exact ⟨_, .mk true front middle back, by simp [hsource]⟩
  · exact ⟨_, .mk false front middle back, by simp [hsource]⟩

end Json

end FlowFence
