import FlowFence.Proofs.Json.Tokens
import Mathlib.Data.Bool.AllAny

/-!
# The grammar of JSON

Which texts write a value, said without the reader. The reader takes off the front of a source just
what the grammar derives there, and its fuel is enough for every text.
-/

namespace FlowFence

namespace Json

variable {text source rest after : List Char} {value : Written} {fuel : Nat}

def memberText (front key behind value : List Char) : List Char :=
  front ++ '"' :: (key ++ '"' :: (behind ++ ':' :: value))

mutual

/-- Whether a text writes a value and has no white space around it. -/
inductive IsValue : List Char → Written → Prop where
  | null : IsValue ['n', 'u', 'l', 'l'] .null
  | yes : IsValue ['t', 'r', 'u', 'e'] (.boolean true)
  | no : IsValue ['f', 'a', 'l', 's', 'e'] (.boolean false)
  | number {text : List Char} {value : Written} (whole : IsNumber text value) : IsValue text value
  | text {text : List Char} {units : List TextUnit} (each : IsUnits text units) :
      IsValue ('"' :: (text ++ ['"'])) (.text units)
  | noItems {space : List Char} (empty : IsSpace space) :
      IsValue ('[' :: (space ++ [']'])) (.list [])
  | list {text : List Char} {items : List Written} (each : IsItems text items) :
      IsValue ('[' :: (text ++ [']'])) (.list items)
  | noMembers {space : List Char} (empty : IsSpace space) :
      IsValue ('\x7b' :: (space ++ ['\x7d'])) (.object [])
  | object {text : List Char} {members : List (List TextUnit × Written)}
      (each : IsMembers text members) : IsValue ('\x7b' :: (text ++ ['\x7d'])) (.object members)

inductive IsSpaced : List Char → Written → Prop where
  | mk {before text behind : List Char} {value : Written} (front : IsSpace before)
      (inner : IsValue text value) (back : IsSpace behind) :
      IsSpaced (before ++ (text ++ behind)) value

inductive IsItems : List Char → List Written → Prop where
  | last {text : List Char} {item : Written} (first : IsSpaced text item) : IsItems text [item]
  | next {text rest : List Char} {item : Written} {items : List Written}
      (first : IsSpaced text item) (others : IsItems rest items) :
      IsItems (text ++ ',' :: rest) (item :: items)

inductive IsMembers : List Char → List (List TextUnit × Written) → Prop where
  | last {front keyText behind text : List Char} {key : List TextUnit} {item : Written}
      (before : IsSpace front) (named : IsUnits keyText key) (middle : IsSpace behind)
      (first : IsSpaced text item) : IsMembers (memberText front keyText behind text) [(key, item)]
  | next {front keyText behind text rest : List Char} {key : List TextUnit} {item : Written}
      {members : List (List TextUnit × Written)}
      (before : IsSpace front) (named : IsUnits keyText key) (middle : IsSpace behind)
      (first : IsSpaced text item) (others : IsMembers rest members) :
      IsMembers (memberText front keyText behind text ++ ',' :: rest) ((key, item) :: members)

end

/-! ## Parts of a text -/

theorem isItems_append {items others : List Written} (h : IsItems text items)
    (hothers : IsItems rest others) : IsItems (text ++ ',' :: rest) (items ++ others) := by
  induction items generalizing text with
  | nil => cases h
  | cons item items ih =>
      cases h with
      | last first => exact .next first hothers
      | next first more =>
          rw [List.append_assoc, List.cons_append]
          exact .next first (ih more)

theorem exists_isItems_of_isSpaced {items : List Written} (h : IsSpaced text (.list items)) :
    items = [] ∨ ∃ text, IsItems text items := by
  cases h with
  | mk front inner back =>
      cases inner with
      | noItems empty => exact .inl rfl
      | list each => exact .inr ⟨_, each⟩
      | number whole => cases whole

theorem exists_isMembers_of_isSpaced {members : List (List TextUnit × Written)}
    (h : IsSpaced text (.object members)) : members = [] ∨ ∃ text, IsMembers text members := by
  cases h with
  | mk front inner back =>
      cases inner with
      | noMembers empty => exact .inl rfl
      | object each => exact .inr ⟨_, each⟩
      | number whole => cases whole

/-- The value of each member has a text of its own. -/
theorem exists_isSpaced_of_mem {members : List (List TextUnit × Written)}
    (h : IsMembers text members) {member : List TextUnit × Written} (hmem : member ∈ members) :
    ∃ text, IsSpaced text member.2 := by
  induction members generalizing text with
  | nil => cases hmem
  | cons first members ih =>
      cases h with
      | last before named middle item =>
          rw [List.mem_singleton.mp hmem]
          exact ⟨_, item⟩
      | next before named middle item others =>
          rcases List.mem_cons.mp hmem with rfl | hmem
          · exact ⟨_, item⟩
          · exact ih others hmem

/-! ## Beginnings and ends -/

def closers : List Char :=
  [',', ']', '\x7d']

theorem endsNumber_of_isSpace {space : List Char} (h : IsSpace space) : EndsNumber space := by
  have hall : ∀ c ∈ spaces, Text.isDigit c = false ∧ c ≠ '.' ∧ c ≠ 'e' ∧ c ≠ 'E' :=
    List.all_iff_forall_prop.mp (by decide)
  exact fun c hc => hall c (h c (List.mem_of_mem_head? hc))

theorem endsNumber_append_cons {space : List Char} (h : IsSpace space) {c : Char}
    (hc : c ∈ closers) (rest : List Char) : EndsNumber (space ++ c :: rest) := by
  have hall : ∀ c ∈ closers, Text.isDigit c = false ∧ c ≠ '.' ∧ c ≠ 'e' ∧ c ≠ 'E' :=
    List.all_iff_forall_prop.mp (by decide)
  cases space with
  | nil =>
      rintro _ ⟨⟩
      exact hall c hc
  | cons d space =>
      have hspace := endsNumber_of_isSpace h
      exact hspace

theorem skipSpace_append_closer {space : List Char} (h : IsSpace space) {c : Char}
    (hc : c ∈ closers) (rest : List Char) : skipSpace (space ++ c :: rest) = c :: rest := by
  have hall : ∀ c ∈ closers, c ∉ spaces := List.all_iff_forall_prop.mp (by decide)
  rw [skipSpace_append h, skipSpace_cons (hall c hc)]

/-- A number begins with a digit or a minus sign. -/
theorem exists_isNumber_eq_cons (h : IsNumber text value) :
    ∃ c tail, text = c :: tail ∧
      ∀ others : List Char, (∀ d ∈ others, Text.isDigit d = false ∧ d ≠ '-') → c ∉ others := by
  cases h with
  | mk negative front middle back =>
      cases negative with
      | true => exact ⟨'-', _, rfl, fun others hothers hmem => (hothers _ hmem).2 rfl⟩
      | false =>
          obtain ⟨c, tail, rfl, hdigit⟩ := exists_isWhole_eq_cons front
          refine ⟨c, _, rfl, fun others hothers hmem => ?_⟩
          rw [(hothers c hmem).1] at hdigit
          cases hdigit

/-- A value begins with neither white space nor the mark that closes a list. -/
theorem exists_isValue_eq_cons (h : IsValue text value) :
    ∃ c tail, text = c :: tail ∧ c ∉ spaces ∧ c ≠ ']' := by
  cases h with
  | null => exact ⟨_, _, rfl, by decide, by decide⟩
  | yes => exact ⟨_, _, rfl, by decide, by decide⟩
  | no => exact ⟨_, _, rfl, by decide, by decide⟩
  | text each => exact ⟨_, _, rfl, by decide, by decide⟩
  | noItems empty => exact ⟨_, _, rfl, by decide, by decide⟩
  | list each => exact ⟨_, _, rfl, by decide, by decide⟩
  | noMembers empty => exact ⟨_, _, rfl, by decide, by decide⟩
  | object each => exact ⟨_, _, rfl, by decide, by decide⟩
  | number whole =>
      obtain ⟨c, tail, rfl, hlead⟩ := exists_isNumber_eq_cons whole
      have hclose : c ∉ [']'] := hlead [']'] (List.all_iff_forall_prop.mp (by decide))
      exact ⟨c, tail, rfl, hlead spaces (List.all_iff_forall_prop.mp (by decide)),
        fun heq => hclose (heq ▸ List.mem_singleton_self c)⟩

theorem ne_nil_of_isSpaced (h : IsSpaced text value) : text ≠ [] := by
  cases h with
  | mk front inner back =>
      obtain ⟨c, tail, rfl, -⟩ := exists_isValue_eq_cons inner
      simp

theorem skipSpace_isItems_ne {items : List Written} (h : IsItems text items)
    (rest after : List Char) : skipSpace (text ++ rest) ≠ ']' :: after := by
  have hspaced {text : List Char} {value : Written} (h : IsSpaced text value) (rest : List Char) :
      skipSpace (text ++ rest) ≠ ']' :: after := by
    cases h with
    | mk front inner back =>
        obtain ⟨c, tail, rfl, hspace, hclose⟩ := exists_isValue_eq_cons inner
        rw [List.append_assoc, skipSpace_append front, List.cons_append, List.cons_append,
          skipSpace_cons hspace]
        exact fun heq => hclose (List.cons.inj heq).1
  cases h with
  | last first => exact hspaced first rest
  | next first others =>
      rw [List.append_assoc]
      exact hspaced first _

theorem skipSpace_memberText {front : List Char} (h : IsSpace front)
    (key behind text : List Char) :
    skipSpace (memberText front key behind text) =
      '"' :: (key ++ '"' :: (behind ++ ':' :: text)) := by
  rw [memberText, skipSpace_append h, skipSpace_cons (by decide)]

theorem memberText_append (front key behind text rest : List Char) :
    memberText front key behind text ++ rest = memberText front key behind (text ++ rest) := by
  simp [memberText]

theorem skipSpace_isMembers_ne {members : List (List TextUnit × Written)}
    (h : IsMembers text members) (rest after : List Char) :
    skipSpace (text ++ rest) ≠ '\x7d' :: after := by
  cases h with
  | last before named middle first =>
      rw [memberText_append, skipSpace_memberText before]
      simp
  | next before named middle first others =>
      rw [List.append_assoc, memberText_append, skipSpace_memberText before]
      simp

theorem length_memberText (front key behind text : List Char) :
    text.length + 3 ≤ (memberText front key behind text).length := by
  simp [memberText]
  omega

/-! ## Reading what is written -/

/-- Whether the fuel is enough for every value that is not too long, whatever follows it. -/
def ReadsValues (fuel : Nat) : Prop :=
  ∀ text value, IsValue text value → 2 * text.length ≤ fuel →
    ∀ rest, EndsNumber rest → readValue? fuel (text ++ rest) = some (value, rest)

def ReadsItems (fuel : Nat) : Prop :=
  ∀ text items, IsItems text items → 2 * text.length < fuel →
    ∀ rest, readItems? fuel (text ++ ']' :: rest) = some (items, rest)

def ReadsMembers (fuel : Nat) : Prop :=
  ∀ text members, IsMembers text members → 2 * text.length < fuel →
    ∀ rest, readMembers? fuel (text ++ '\x7d' :: rest) = some (members, rest)

theorem readValue?_space {space : List Char} (h : IsSpace space) (source : List Char) :
    readValue? fuel (space ++ source) = readValue? fuel source := by
  cases fuel with
  | zero => rfl
  | succ fuel => rw [readValue?, readValue?, skipSpace_append h]

/-- What begins like none of the other values is read as a number. -/
theorem readValue?_number {c : Char} (hspace : c ∉ spaces)
    (hlead : c ∉ ['n', 't', 'f', '"', '[', '\x7b']) (tail : List Char) :
    readValue? (fuel + 1) (c :: tail) = readNumber? (c :: tail) := by
  rw [readValue?, skipSpace_cons hspace]
  split
  case h_7 => rfl
  all_goals
    rename_i heq
    rw [(List.cons.inj heq).1] at hlead
    exact absurd (by decide) hlead

theorem readValue?_list (h : ∀ after, skipSpace source ≠ ']' :: after) :
    readValue? (fuel + 1) ('[' :: source) =
      (readItems? fuel source).map fun read => (.list read.1, read.2) := by
  simp only [readValue?, skipSpace_cons (by decide : '[' ∉ spaces)]

theorem readValue?_object (h : ∀ after, skipSpace source ≠ '\x7d' :: after) :
    readValue? (fuel + 1) ('\x7b' :: source) =
      (readMembers? fuel source).map fun read => (.object read.1, read.2) := by
  simp only [readValue?, skipSpace_cons (by decide : '\x7b' ∉ spaces)]

/-- Of a value with white space around it the space behind it is left. -/
theorem exists_readValue?_spaced (h : ReadsValues fuel) (hspaced : IsSpaced text value)
    (hfuel : 2 * text.length ≤ fuel) {c : Char} (hc : c ∈ closers) (rest : List Char) :
    ∃ space, IsSpace space ∧
      readValue? fuel (text ++ c :: rest) = some (value, space ++ c :: rest) := by
  cases hspaced with
  | mk front inner back =>
      refine ⟨_, back, ?_⟩
      simp only [List.length_append] at hfuel
      rw [List.append_assoc, List.append_assoc, readValue?_space front,
        h _ _ inner (by omega) _ (endsNumber_append_cons back hc rest)]

theorem readsValues_succ (hitems : ReadsItems fuel) (hmembers : ReadsMembers fuel) :
    ReadsValues (fuel + 1) := by
  intro text value h hfuel rest hrest
  cases h with
  | null => rfl
  | yes => rfl
  | no => rfl
  | number whole =>
      have hread := readNumber?_append whole hrest
      obtain ⟨c, tail, rfl, hlead⟩ := exists_isNumber_eq_cons whole
      have hspace := hlead spaces (List.all_iff_forall_prop.mp (by decide))
      have hmark := hlead ['n', 't', 'f', '"', '[', '\x7b'] (List.all_iff_forall_prop.mp (by decide))
      rw [← hread, List.cons_append, readValue?_number hspace hmark]
  | text each =>
      have hread := readUnits_of_isUnits each rest
      simp [readValue?, skipSpace_cons, spaces, hread]
  | noItems empty =>
      have hclose := skipSpace_append_closer empty (by decide : ']' ∈ closers) rest
      simp [readValue?, skipSpace_cons, spaces, hclose]
  | list each =>
      simp only [List.length_cons, List.length_append, List.length_nil] at hfuel
      rw [List.cons_append, List.append_assoc, List.singleton_append,
        readValue?_list (skipSpace_isItems_ne each _), hitems _ _ each (by omega) rest]
      rfl
  | noMembers empty =>
      have hclose := skipSpace_append_closer empty (by decide : '\x7d' ∈ closers) rest
      simp [readValue?, skipSpace_cons, spaces, hclose]
  | object each =>
      simp only [List.length_cons, List.length_append, List.length_nil] at hfuel
      rw [List.cons_append, List.append_assoc, List.singleton_append,
        readValue?_object (skipSpace_isMembers_ne each _), hmembers _ _ each (by omega) rest]
      rfl

theorem readsItems_succ (hvalues : ReadsValues fuel) (hitems : ReadsItems fuel) :
    ReadsItems (fuel + 1) := by
  intro text items h hfuel rest
  cases h with
  | last first =>
      obtain ⟨space, hspace, hread⟩ :=
        exists_readValue?_spaced hvalues first (by omega) (by decide : ']' ∈ closers) rest
      simp only [readItems?, hread, skipSpace_append_closer hspace (by decide : ']' ∈ closers)]
  | @next text others item items first more =>
      simp only [List.length_append, List.length_cons] at hfuel
      obtain ⟨space, hspace, hread⟩ := exists_readValue?_spaced hvalues first (by omega)
        (by decide : ',' ∈ closers) (others ++ ']' :: rest)
      rw [List.append_assoc, List.cons_append]
      simp only [readItems?, hread, skipSpace_append_closer hspace (by decide : ',' ∈ closers),
        hitems _ _ more (by omega) rest, Option.map_some]

section Member

variable {front keyText behind : List Char} {key : List TextUnit} {item : Written}

/-- The value of a member is read behind its key and colon. -/
theorem readMembers?_last (before : IsSpace front) (named : IsUnits keyText key)
    (middle : IsSpace behind) (hread : readValue? fuel source = some (item, rest))
    (hclose : skipSpace rest = '\x7d' :: after) :
    readMembers? (fuel + 1) (memberText front keyText behind source) =
      some ([(key, item)], after) := by
  simp only [readMembers?, skipSpace_memberText before, readUnits_of_isUnits named,
    skipSpace_append middle, skipSpace_cons (by decide : ':' ∉ spaces), hread, hclose]

theorem readMembers?_next (before : IsSpace front) (named : IsUnits keyText key)
    (middle : IsSpace behind) (hread : readValue? fuel source = some (item, rest))
    (hcomma : skipSpace rest = ',' :: after) :
    readMembers? (fuel + 1) (memberText front keyText behind source) =
      (readMembers? fuel after).map fun read => ((key, item) :: read.1, read.2) := by
  simp only [readMembers?, skipSpace_memberText before, readUnits_of_isUnits named,
    skipSpace_append middle, skipSpace_cons (by decide : ':' ∉ spaces), hread, hcomma]

end Member

theorem readsMembers_succ (hvalues : ReadsValues fuel) (hmembers : ReadsMembers fuel) :
    ReadsMembers (fuel + 1) := by
  intro text members h hfuel rest
  cases h with
  | @last front keyText behind text _ _ before named middle first =>
      have hlength := length_memberText front keyText behind text
      obtain ⟨space, hspace, hread⟩ := exists_readValue?_spaced hvalues first (by omega)
        (by decide : '\x7d' ∈ closers) rest
      rw [memberText_append]
      exact readMembers?_last before named middle hread
        (skipSpace_append_closer hspace (by decide) rest)
  | @next front keyText behind text others _ _ _ before named middle first more =>
      simp only [List.length_append, List.length_cons] at hfuel
      have hlength := length_memberText front keyText behind text
      obtain ⟨space, hspace, hread⟩ := exists_readValue?_spaced hvalues first (by omega)
        (by decide : ',' ∈ closers) (others ++ '\x7d' :: rest)
      rw [List.append_assoc, List.cons_append, memberText_append,
        readMembers?_next before named middle hread (skipSpace_append_closer hspace (by decide) _),
        hmembers _ _ more (by omega) rest, Option.map_some]

theorem readsAll (fuel : Nat) : ReadsValues fuel ∧ ReadsItems fuel ∧ ReadsMembers fuel := by
  -- Each reader calls the others with one unit less, so the three bounds go down together.
  induction fuel with
  | zero =>
      refine ⟨fun text value h hfuel => ?_, fun _ _ _ hfuel => ?_, fun _ _ _ hfuel => ?_⟩
      · obtain ⟨c, tail, rfl, -⟩ := exists_isValue_eq_cons h
        simp at hfuel
      · exact absurd hfuel (Nat.not_lt_zero _)
      · exact absurd hfuel (Nat.not_lt_zero _)
  | succ fuel ih =>
      obtain ⟨hvalues, hitems, hmembers⟩ := ih
      exact ⟨readsValues_succ hitems hmembers, readsItems_succ hvalues hitems,
        readsMembers_succ hvalues hmembers⟩

/-! ## Writing what is read -/

/-- Whether every value that is read with the fuel was written in front of what is left. -/
def TakesValues (fuel : Nat) : Prop :=
  ∀ source value rest, readValue? fuel source = some (value, rest) →
    ∃ front text, IsSpace front ∧ IsValue text value ∧ source = front ++ (text ++ rest)

def TakesItems (fuel : Nat) : Prop :=
  ∀ source items rest, readItems? fuel source = some (items, rest) →
    ∃ text, IsItems text items ∧ source = text ++ ']' :: rest

def TakesMembers (fuel : Nat) : Prop :=
  ∀ source members rest, readMembers? fuel source = some (members, rest) →
    ∃ text, IsMembers text members ∧ source = text ++ '\x7d' :: rest

theorem exists_space_of_skipSpace {c : Char} (h : skipSpace source = c :: after) :
    ∃ space, IsSpace space ∧ source = space ++ c :: after := by
  obtain ⟨space, hspace, hsource⟩ := exists_eq_append_skipSpace source
  exact ⟨space, hspace, by rw [hsource, h]⟩

/-- A value and the mark behind it take white space on both sides. -/
theorem exists_isSpaced_of_readValue? (h : TakesValues fuel)
    (hread : readValue? fuel source = some (value, rest)) {c : Char}
    (hclose : skipSpace rest = c :: after) :
    ∃ text, IsSpaced text value ∧ source = text ++ c :: after := by
  obtain ⟨front, text, hfront, hvalue, rfl⟩ := h _ _ _ hread
  obtain ⟨space, hspace, rfl⟩ := exists_space_of_skipSpace hclose
  exact ⟨_, .mk hfront hvalue hspace, by simp⟩

theorem takesValues_succ (hitems : TakesItems fuel) (hmembers : TakesMembers fuel) :
    TakesValues (fuel + 1) := by
  intro source value rest h
  obtain ⟨front, hfront, hsource⟩ := exists_eq_append_skipSpace source
  -- The space in front is set apart once; behind it the first mark tells the kind of the value.
  suffices hinner : ∃ text, IsValue text value ∧ skipSpace source = text ++ rest by
    obtain ⟨text, hvalue, heq⟩ := hinner
    exact ⟨front, text, hfront, hvalue, heq ▸ hsource⟩
  rw [readValue?] at h
  split at h
  case h_1 heq =>
      cases h
      exact ⟨_, .null, heq⟩
  case h_2 heq =>
      cases h
      exact ⟨_, .yes, heq⟩
  case h_3 heq =>
      cases h
      exact ⟨_, .no, heq⟩
  case h_4 heq =>
      obtain ⟨⟨units, _⟩, hread, hpair⟩ := Option.map_eq_some_iff.mp h
      cases hpair
      obtain ⟨text, hunits, rfl⟩ := exists_of_readUnits hread
      exact ⟨_, .text hunits, by rw [heq]; simp⟩
  case h_5 inner heq =>
      split at h
      · rename_i hclose
        cases h
        obtain ⟨space, hspace, rfl⟩ := exists_space_of_skipSpace hclose
        exact ⟨_, .noItems hspace, by rw [heq]; simp⟩
      · obtain ⟨⟨items, _⟩, hread, hpair⟩ := Option.map_eq_some_iff.mp h
        cases hpair
        obtain ⟨text, heach, rfl⟩ := hitems _ _ _ hread
        exact ⟨_, .list heach, by rw [heq]; simp⟩
  case h_6 inner heq =>
      split at h
      · rename_i hclose
        cases h
        obtain ⟨space, hspace, rfl⟩ := exists_space_of_skipSpace hclose
        exact ⟨_, .noMembers hspace, by rw [heq]; simp⟩
      · obtain ⟨⟨members, _⟩, hread, hpair⟩ := Option.map_eq_some_iff.mp h
        cases hpair
        obtain ⟨text, heach, rfl⟩ := hmembers _ _ _ hread
        exact ⟨_, .object heach, by rw [heq]; simp⟩
  case h_7 =>
      obtain ⟨text, hnumber, heq⟩ := isNumber_of_readNumber? h
      exact ⟨text, .number hnumber, heq⟩

theorem takesItems_succ (hvalues : TakesValues fuel) (hitems : TakesItems fuel) :
    TakesItems (fuel + 1) := by
  intro source items rest h
  rw [readItems?] at h
  split at h
  · rename_i item behind hread
    split at h
    · rename_i hclose
      cases h
      obtain ⟨text, hspaced, rfl⟩ := exists_isSpaced_of_readValue? hvalues hread hclose
      exact ⟨text, .last hspaced, rfl⟩
    · rename_i more hcomma
      obtain ⟨⟨others, _⟩, hmore, hpair⟩ := Option.map_eq_some_iff.mp h
      cases hpair
      obtain ⟨text, hspaced, rfl⟩ := exists_isSpaced_of_readValue? hvalues hread hcomma
      obtain ⟨otherText, heach, rfl⟩ := hitems _ _ _ hmore
      exact ⟨_, .next hspaced heach, by simp⟩
    · cases h
  · cases h

theorem takesMembers_succ (hvalues : TakesValues fuel) (hmembers : TakesMembers fuel) :
    TakesMembers (fuel + 1) := by
  intro source members rest h
  rw [readMembers?] at h
  split at h
  case h_2 => cases h
  rename_i inner hquote
  split at h
  case h_2 => cases h
  rename_i key behind hunits
  split at h
  case h_2 => cases h
  rename_i valueSource hcolon
  split at h
  case h_2 => cases h
  rename_i item following hread
  obtain ⟨front, hfront, rfl⟩ := exists_space_of_skipSpace hquote
  obtain ⟨keyText, hkey, rfl⟩ := exists_of_readUnits hunits
  obtain ⟨middle, hmiddle, rfl⟩ := exists_space_of_skipSpace hcolon
  split at h
  · rename_i hclose
    cases h
    obtain ⟨text, hspaced, rfl⟩ := exists_isSpaced_of_readValue? hvalues hread hclose
    exact ⟨_, .last hfront hkey hmiddle hspaced, by simp [memberText]⟩
  · rename_i more hcomma
    obtain ⟨⟨others, _⟩, hmore, hpair⟩ := Option.map_eq_some_iff.mp h
    cases hpair
    obtain ⟨text, hspaced, rfl⟩ := exists_isSpaced_of_readValue? hvalues hread hcomma
    obtain ⟨otherText, heach, rfl⟩ := hmembers _ _ _ hmore
    exact ⟨_, .next hfront hkey hmiddle hspaced heach, by simp [memberText]⟩
  · cases h

theorem takesAll (fuel : Nat) : TakesValues fuel ∧ TakesItems fuel ∧ TakesMembers fuel := by
  induction fuel with
  | zero =>
      refine ⟨fun _ _ _ h => ?_, fun _ _ _ h => ?_, fun _ _ _ h => ?_⟩
      all_goals cases h
  | succ fuel ih =>
      obtain ⟨hvalues, hitems, hmembers⟩ := ih
      exact ⟨takesValues_succ hitems hmembers, takesItems_succ hvalues hitems,
        takesMembers_succ hvalues hmembers⟩

/-- A whole text is read as the one value that it writes. -/
theorem ofText?_eq_some_iff : Written.ofText? text = some value ↔ IsSpaced text value := by
  constructor
  · intro h
    rw [Written.ofText?] at h
    split at h
    · rename_i _ behind hread
      split at h
      · rename_i hend
        cases h
        obtain ⟨front, inner, hfront, hvalue, rfl⟩ := (takesAll _).1 _ _ _ hread
        obtain ⟨space, hspace, heq⟩ := exists_eq_append_skipSpace behind
        rw [List.isEmpty_iff.mp hend, List.append_nil] at heq
        exact heq ▸ .mk hfront hvalue hspace
      · cases h
    · cases h
  · intro h
    cases h with
    | @mk front inner space _ hfront hvalue hspace =>
        have hread : readValue? (2 * (front ++ (inner ++ space)).length + 2)
            (front ++ (inner ++ space)) = some (value, space) := by
          rw [readValue?_space hfront]
          refine (readsAll _).1 _ _ hvalue ?_ _ (endsNumber_of_isSpace hspace)
          simp only [List.length_append]
          omega
        have hend : skipSpace space = [] := by
          rw [← List.append_nil space, skipSpace_append hspace]
          rfl
        simp only [Written.ofText?, hread, hend]
        rfl

end Json

end FlowFence
