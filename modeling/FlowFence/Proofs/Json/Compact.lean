import FlowFence.Json.Compact
import FlowFence.Proofs.Text.Numeral
import FlowFence.Proofs.Text.Split

/-!
# Compact texts tell values apart

In front of any text that does not go on with a digit, the compact text of a value ends where the
value ends. So two values of one text are equal. Numbers that are kept as the literal they were
written as are left out, since a literal can be any text.
-/

namespace FlowFence

namespace Json

def NoDigit (text : List Char) : Prop :=
  ∀ c ∈ text.head?, Text.isDigit c = false

/-- Whether no number in a value is kept as a literal. -/
inductive IsExact : Json → Prop
  | null : IsExact .null
  | boolean (value : Bool) : IsExact (.boolean value)
  | integer (value : Int) : IsExact (.integer value)
  | text (value : String) : IsExact (.text value)
  | list (items : List Json) (h : ∀ item ∈ items, IsExact item) : IsExact (.list items)
  | object (members : List (String × Json)) (h : ∀ m ∈ members, IsExact m.2) :
      IsExact (.object members)

/-! ## Numbers -/

theorem natural_inj {m n : Nat} : natural m = natural n ↔ m = n := by
  rw [natural, natural, integer.injEq, Int.ofNat_inj]

theorem isDigit_of_mem_decimal {n : Nat} {c : Char} (h : c ∈ Text.decimal n) :
    Text.isDigit c = true := by
  obtain ⟨digit, hdigit, rfl⟩ := Text.exists_digit_of_mem_toDigits (by decide) h
  have hall : ∀ d < 10, Text.isDigit (Nat.digitChar d) = true := by decide
  exact hall digit hdigit

theorem takeWhile_decimal_append (n : Nat) {rest : List Char} (h : NoDigit rest) :
    (Text.decimal n ++ rest).takeWhile Text.isDigit = Text.decimal n := by
  rw [List.takeWhile_append_of_pos fun c hc => isDigit_of_mem_decimal hc]
  cases rest with
  | nil => simp
  | cons c rest =>
      have hc : Text.isDigit c = false := h c rfl
      simp [hc]

theorem decimal_injective {m n : Nat} (h : Text.decimal m = Text.decimal n) : m = n := by
  have hread := congrArg (Text.numeral? 10) h
  simpa using hread

theorem decimal_append_inj {m n : Nat} {r s : List Char} (hr : NoDigit r) (hs : NoDigit s)
    (h : Text.decimal m ++ r = Text.decimal n ++ s) : m = n ∧ r = s := by
  have hdigits := congrArg (List.takeWhile Text.isDigit) h
  rw [takeWhile_decimal_append m hr, takeWhile_decimal_append n hs] at hdigits
  rw [hdigits] at h
  exact ⟨decimal_injective hdigits, List.append_cancel_left h⟩

theorem exists_decimal_eq_cons (n : Nat) :
    ∃ c digits, Text.decimal n = c :: digits ∧ Text.isDigit c = true := by
  cases hdigits : Text.decimal n with
  | nil => exact (Nat.toDigits_ne_nil hdigits).elim
  | cons c digits =>
      refine ⟨c, digits, rfl, isDigit_of_mem_decimal (n := n) ?_⟩
      rw [hdigits]
      exact List.mem_cons_self

theorem signedDecimal_append_inj {i j : Int} {r s : List Char} (hr : NoDigit r) (hs : NoDigit s)
    (h : Text.signedDecimal i ++ r = Text.signedDecimal j ++ s) : i = j ∧ r = s := by
  have hminus (n : Nat) (rest tail : List Char) : Text.decimal n ++ rest ≠ '-' :: tail := by
    obtain ⟨c, digits, hdigits, hc⟩ := exists_decimal_eq_cons n
    rw [hdigits, List.cons_append]
    intro heq
    rw [(List.cons.inj heq).1] at hc
    exact absurd hc (by decide)
  cases i with
  | ofNat m =>
      cases j with
      | ofNat n =>
          obtain ⟨rfl, hrest⟩ := decimal_append_inj hr hs h
          exact ⟨rfl, hrest⟩
      | negSucc n => exact (hminus _ _ _ h).elim
  | negSucc m =>
      cases j with
      | ofNat n => exact (hminus _ _ _ h.symm).elim
      | negSucc n =>
          obtain ⟨hsucc, hrest⟩ := decimal_append_inj hr hs (List.cons.inj h).2
          exact ⟨by rw [Nat.succ.inj hsucc], hrest⟩

/-! ## Texts -/

def escaped : List Char :=
  '"' :: '\\' :: (List.range 32).map Char.ofNat

theorem mem_escaped_of_toNat_lt {c : Char} (h : c.toNat < 32) : c ∈ escaped := by
  refine List.mem_cons_of_mem _ (List.mem_cons_of_mem _ ?_)
  rw [← Char.ofNat_toNat c]
  exact List.mem_map_of_mem (List.mem_range.mpr h)

theorem escapedChar_of_not_mem {c : Char} (h : c ∉ escaped) : escapedChar c = [c] := by
  have hlarge : ¬ c.toNat < 0x20 := fun hlt => h (mem_escaped_of_toNat_lt hlt)
  unfold escapedChar
  split
  all_goals first
    | exact absurd (by decide) h
    | rw [if_neg hlarge]

theorem head?_escapedChar_of_mem {c : Char} (h : c ∈ escaped) :
    (escapedChar c).head? = some '\\' := by
  have hall : (escaped.all fun c => (escapedChar c).head? == some '\\') = true := by
    decide +kernel
  exact beq_iff_eq.mp (List.all_eq_true.mp hall c h)

theorem eq_of_isFront_escapedChar {c d : Char} (hc : c ∈ escaped) (hd : d ∈ escaped)
    (h : escapedChar c <+: escapedChar d) : c = d := by
  have hall : (escaped.all fun c => escaped.all fun d =>
      !(escapedChar c).isPrefixOf (escapedChar d) || c == d) = true := by
    decide +kernel
  have hpair := List.all_eq_true.mp (List.all_eq_true.mp hall c hc) d hd
  rw [List.isPrefixOf_iff_prefix.mpr h] at hpair
  exact beq_iff_eq.mp hpair

theorem exists_escapedChar_eq_cons (c : Char) :
    ∃ lead rest, escapedChar c = lead :: rest ∧ lead = if c ∈ escaped then '\\' else c := by
  by_cases h : c ∈ escaped
  · have hhead := head?_escapedChar_of_mem h
    obtain ⟨rest, hrest⟩ := List.head?_eq_some_iff.mp hhead
    exact ⟨_, rest, hrest, (if_pos h).symm⟩
  · exact ⟨c, [], escapedChar_of_not_mem h, (if_neg h).symm⟩

theorem escapedChar_append_ne_cons (c : Char) (x y : List Char) :
    escapedChar c ++ x ≠ '"' :: y := by
  obtain ⟨lead, rest, hchar, hlead⟩ := exists_escapedChar_eq_cons c
  rw [hchar, List.cons_append]
  intro heq
  rw [(List.cons.inj heq).1] at hlead
  split at hlead
  · exact absurd hlead (by decide)
  · rename_i h
    exact h (hlead ▸ List.mem_cons_self)

theorem not_mem_escaped_of_escapedChar_append {c d : Char} {x y : List Char} (hd : d ∉ escaped)
    (h : escapedChar c ++ x = d :: y) : c ∉ escaped := by
  intro hc
  obtain ⟨lead, rest, hchar, hlead⟩ := exists_escapedChar_eq_cons c
  rw [if_pos hc] at hlead
  rw [hchar, List.cons_append, hlead] at h
  exact hd ((List.cons.inj h).1 ▸ by decide)

theorem escapedChar_append_inj {c d : Char} {x y : List Char}
    (h : escapedChar c ++ x = escapedChar d ++ y) : c = d ∧ x = y := by
  have hchar : c = d := by
    by_cases hc : c ∈ escaped
    · by_cases hd : d ∈ escaped
      · have hfront : escapedChar c <+: escapedChar d ++ y := ⟨x, h⟩
        rcases List.prefix_or_prefix_of_prefix hfront (List.prefix_append _ _) with hcd | hdc
        · exact eq_of_isFront_escapedChar hc hd hcd
        · exact (eq_of_isFront_escapedChar hd hc hdc).symm
      · rw [escapedChar_of_not_mem hd] at h
        exact (not_mem_escaped_of_escapedChar_append hd h hc).elim
    · rw [escapedChar_of_not_mem hc] at h
      have hd := not_mem_escaped_of_escapedChar_append hc h.symm
      rw [escapedChar_of_not_mem hd] at h
      exact (List.cons.inj h).1
  subst hchar
  exact ⟨rfl, List.append_cancel_left h⟩

theorem quote_append_inj {a b : String} {r s : List Char} (h : quote a ++ r = quote b ++ s) :
    a = b ∧ r = s := by
  have hlists (a b : List Char) (h : a.flatMap escapedChar ++ '"' :: r =
      b.flatMap escapedChar ++ '"' :: s) : a = b ∧ r = s := by
    induction a generalizing b with
    | nil =>
        cases b with
        | nil => exact ⟨rfl, (List.cons.inj h).2⟩
        | cons d b =>
            rw [List.flatMap_cons, List.append_assoc] at h
            exact (escapedChar_append_ne_cons _ _ _ h.symm).elim
    | cons c a ih =>
        cases b with
        | nil =>
            rw [List.flatMap_cons, List.append_assoc] at h
            exact (escapedChar_append_ne_cons _ _ _ h).elim
        | cons d b =>
            rw [List.flatMap_cons, List.flatMap_cons, List.append_assoc, List.append_assoc] at h
            obtain ⟨rfl, hrest⟩ := escapedChar_append_inj h
            obtain ⟨rfl, htail⟩ := ih b hrest
            exact ⟨rfl, htail⟩
  simp only [quote, List.cons_append, List.append_assoc, List.nil_append,
    List.cons.injEq, true_and] at h
  obtain ⟨htext, hrest⟩ := hlists _ _ h
  exact ⟨String.toList_inj.mp htext, hrest⟩

/-! ## Values -/

theorem compactItems_eq_map (items : List Json) : compactItems items = items.map compact := by
  induction items with
  | nil => rfl
  | cons item items ih => simp [compactItems, ih]

def compactMember (member : String × Json) : List Char :=
  quote member.1 ++ ':' :: member.2.compact

theorem compactMembers_eq_map (members : List (String × Json)) :
    compactMembers members = members.map compactMember := by
  induction members with
  | nil => rfl
  | cons member members ih => simp [compactMembers, compactMember, ih]

theorem noDigit_comma (text : List Char) : NoDigit (',' :: text) := by
  rintro _ ⟨⟩
  rfl

/--
Joined texts of values end where the values end, if the text of each value does in front of a comma
and in front of the closing mark, which no value begins with.
-/
theorem joined_append_inj {α : Type} (encode : α → List Char) (close : Char) (hcomma : close ≠ ',')
    (hclose : Text.isDigit close = false) {values : List α} (others : List α) {r s : List Char}
    (hencode : ∀ v ∈ values, ∀ w ∈ others, ∀ x y, NoDigit x → NoDigit y →
      encode v ++ x = encode w ++ y → v = w ∧ x = y)
    (hvalues : ∀ v ∈ values, ∀ x y, encode v ++ x ≠ close :: y)
    (hothers : ∀ w ∈ others, ∀ x y, encode w ++ x ≠ close :: y)
    (h : Text.joined ',' (values.map encode) ++ close :: r =
      Text.joined ',' (others.map encode) ++ close :: s) : values = others ∧ r = s := by
  have hfollow (v : α) (front : List α) (rest : List Char) :
      NoDigit ((front.map encode).flatMap (',' :: ·) ++ close :: rest) := by
    cases front with
    | nil =>
        rintro _ ⟨⟩
        exact hclose
    | cons w front => exact noDigit_comma _
  have htails (values others : List α)
      (hencode : ∀ v ∈ values, ∀ w ∈ others, ∀ x y, NoDigit x → NoDigit y →
        encode v ++ x = encode w ++ y → v = w ∧ x = y)
      (h : (values.map encode).flatMap (',' :: ·) ++ close :: r =
        (others.map encode).flatMap (',' :: ·) ++ close :: s) : values = others ∧ r = s := by
    induction values generalizing others with
    | nil =>
        cases others with
        | nil => exact ⟨rfl, (List.cons.inj h).2⟩
        | cons w others => exact (hcomma (List.cons.inj h).1).elim
    | cons v values ih =>
        cases others with
        | nil => exact (hcomma (List.cons.inj h).1.symm).elim
        | cons w others =>
            simp only [List.map_cons, List.flatMap_cons, List.cons_append, List.append_assoc] at h
            obtain ⟨rfl, hrest⟩ := hencode v List.mem_cons_self w List.mem_cons_self _ _
              (hfollow v _ _) (hfollow v _ _) (List.cons.inj h).2
            obtain ⟨rfl, htail⟩ := ih others
              (fun v hv w hw => hencode v (List.mem_cons_of_mem _ hv) w (List.mem_cons_of_mem _ hw))
              hrest
            exact ⟨rfl, htail⟩
  cases values with
  | nil =>
      cases others with
      | nil => exact ⟨rfl, (List.cons.inj h).2⟩
      | cons w others =>
          rw [List.map_cons, Text.joined_cons, List.append_assoc] at h
          exact (hothers w List.mem_cons_self _ _ h.symm).elim
  | cons v values =>
      cases others with
      | nil =>
          rw [List.map_cons, Text.joined_cons, List.append_assoc] at h
          exact (hvalues v List.mem_cons_self _ _ h).elim
      | cons w others =>
          simp only [List.map_cons, Text.joined_cons, List.append_assoc] at h
          obtain ⟨rfl, hrest⟩ := hencode v List.mem_cons_self w List.mem_cons_self _ _
            (hfollow v _ _) (hfollow v _ _) h
          obtain ⟨rfl, htail⟩ := htails values others
            (fun v hv w hw => hencode v (List.mem_cons_of_mem _ hv) w (List.mem_cons_of_mem _ hw))
            hrest
          exact ⟨rfl, htail⟩

/-- What the first character of a compact text is, every number counted as beginning with a zero. -/
def lead : Json → Char
  | .null => 'n'
  | .boolean true => 't'
  | .boolean false => 'f'
  | .integer _ => '0'
  | .decimal _ => '.'
  | .text _ => '"'
  | .list _ => '['
  | .object _ => '{'

def leadOf (c : Char) : Char :=
  if Text.isDigit c ∨ c = '-' then '0' else c

theorem exists_compact_eq_cons {value : Json} (h : value.IsExact) :
    ∃ c rest, value.compact = c :: rest ∧ leadOf c = value.lead := by
  cases h with
  | null => exact ⟨_, _, rfl, by decide⟩
  | boolean value => cases value <;> exact ⟨_, _, rfl, by decide⟩
  | integer value =>
      cases value with
      | ofNat n =>
          obtain ⟨c, digits, hdigits, hc⟩ := exists_decimal_eq_cons n
          exact ⟨c, digits, by rw [compact, Text.signedDecimal, hdigits], if_pos (.inl hc)⟩
      | negSucc n => exact ⟨_, _, rfl, rfl⟩
  | text value => exact ⟨_, _, rfl, rfl⟩
  | list items h => exact ⟨_, _, by rw [compact]; rfl, rfl⟩
  | object members h => exact ⟨_, _, by rw [compact]; rfl, rfl⟩

theorem lead_eq_of_compact_append {v w : Json} (hv : v.IsExact) (hw : w.IsExact) {r s : List Char}
    (h : v.compact ++ r = w.compact ++ s) : v.lead = w.lead := by
  obtain ⟨c, front, hfront, hc⟩ := exists_compact_eq_cons hv
  obtain ⟨d, back, hback, hd⟩ := exists_compact_eq_cons hw
  rw [hfront, hback] at h
  rw [← hc, ← hd, (List.cons.inj h).1]

theorem compact_append_ne_cons {value : Json} (h : value.IsExact) {close : Char}
    (hclose : leadOf close ≠ value.lead) (x y : List Char) : value.compact ++ x ≠ close :: y := by
  obtain ⟨c, rest, hrest, hc⟩ := exists_compact_eq_cons h
  rw [hrest, List.cons_append]
  intro heq
  rw [(List.cons.inj heq).1] at hc
  exact hclose hc

theorem lead_ne_bracket (value : Json) : leadOf ']' ≠ value.lead := by
  have hbracket : leadOf ']' = ']' := rfl
  rw [hbracket]
  rcases value with _ | (_ | _) | _ | _ | _ | _ | _ <;> simp [lead]

theorem compactMember_append_ne_cons (member : String × Json) (x y : List Char) :
    compactMember member ++ x ≠ '}' :: y := by
  intro heq
  exact absurd (List.cons.inj heq).1 (by decide)

/-- The text of a value ends where the value ends if what follows does not begin with a digit. -/
theorem compact_append_inj {v w : Json} (hv : v.IsExact) (hw : w.IsExact) {r s : List Char}
    (hr : NoDigit r) (hs : NoDigit s) (h : v.compact ++ r = w.compact ++ s) : v = w ∧ r = s := by
  have hlead := lead_eq_of_compact_append hv hw h
  induction hv generalizing w r s with
  | null =>
      cases hw with
      | null => exact ⟨rfl, List.append_cancel_left h⟩
      | boolean value => cases value <;> exact absurd hlead (by decide)
      | _ => exact absurd hlead (by simp [lead])
  | boolean value =>
      cases hw with
      | boolean other =>
          have hvalue : value = other := by
            cases value <;> cases other <;> first | rfl | exact absurd hlead (by decide)
          subst hvalue
          exact ⟨rfl, List.append_cancel_left h⟩
      | _ => cases value <;> exact absurd hlead (by simp [lead])
  | integer value =>
      cases hw with
      | integer other =>
          rw [compact, compact] at h
          obtain ⟨rfl, hrest⟩ := signedDecimal_append_inj hr hs h
          exact ⟨rfl, hrest⟩
      | boolean value => cases value <;> exact absurd hlead (by simp [lead])
      | _ => exact absurd hlead (by simp [lead])
  | text value =>
      cases hw with
      | text other =>
          rw [compact, compact] at h
          obtain ⟨rfl, hrest⟩ := quote_append_inj h
          exact ⟨rfl, hrest⟩
      | boolean value => cases value <;> exact absurd hlead (by simp [lead])
      | _ => exact absurd hlead (by simp [lead])
  | list items hitems ih =>
      cases hw with
      | list others hothers =>
          simp only [compact, compactItems_eq_map, List.cons_append, List.append_assoc,
            List.nil_append, List.cons.injEq, true_and] at h
          obtain ⟨rfl, hrest⟩ := joined_append_inj compact ']' (by decide) rfl others
            (fun v hv w hw x y hx hy heq => ih v hv (hothers w hw) hx hy heq
              (lead_eq_of_compact_append (hitems v hv) (hothers w hw) heq))
            (fun v hv => compact_append_ne_cons (hitems v hv) (lead_ne_bracket v))
            (fun w hw => compact_append_ne_cons (hothers w hw) (lead_ne_bracket w)) h
          exact ⟨rfl, hrest⟩
      | boolean value => cases value <;> exact absurd hlead (by simp [lead])
      | _ => exact absurd hlead (by simp [lead])
  | object members hmembers ih =>
      cases hw with
      | object others hothers =>
          simp only [compact, compactMembers_eq_map, List.cons_append, List.append_assoc,
            List.nil_append, List.cons.injEq, true_and] at h
          have hmember : ∀ m ∈ members, ∀ n ∈ others, ∀ x y, NoDigit x → NoDigit y →
              compactMember m ++ x = compactMember n ++ y → m = n ∧ x = y := by
            intro m hm n hn x y hx hy heq
            simp only [compactMember, List.append_assoc, List.cons_append] at heq
            obtain ⟨hkey, hvalue⟩ := quote_append_inj heq
            have hvalues := (List.cons.inj hvalue).2
            obtain ⟨hsame, hrest⟩ := ih m hm (hothers n hn) hx hy hvalues
              (lead_eq_of_compact_append (hmembers m hm) (hothers n hn) hvalues)
            exact ⟨Prod.ext hkey hsame, hrest⟩
          obtain ⟨rfl, hrest⟩ := joined_append_inj compactMember '}' (by decide) rfl others hmember
            (fun m _ => compactMember_append_ne_cons m)
            (fun n _ => compactMember_append_ne_cons n) h
          exact ⟨rfl, hrest⟩
      | boolean value => cases value <;> exact absurd hlead (by simp [lead])
      | _ => exact absurd hlead (by simp [lead])

theorem compact_injective {v w : Json} (hv : v.IsExact) (hw : w.IsExact)
    (h : v.compact = w.compact) : v = w := by
  have hnil : NoDigit [] := by rintro _ ⟨⟩
  refine (compact_append_inj hv hw hnil hnil ?_).1
  rw [h]

end Json

end FlowFence
