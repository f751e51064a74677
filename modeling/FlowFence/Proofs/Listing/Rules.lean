import FlowFence.Proofs.Listing.Documents

/-!
# Rules of a listing

What is read of a listing of a chain: the handle of every rule in it, in order. A rule without a
proper handle fails the whole listing, so no rule is ever missing from the count.
-/

namespace FlowFence

namespace Listing

variable {text : List Char} {body : Json} {entry : Entry} {entries : List Entry}
  {rules : List InstalledRule}

/-- Whether the body of a rule gives a handle: an object that has one, or a list of it alone. -/
inductive HasHandle : Json → Nat → Prop where
  | object {members : List (String × Json)} {handle : Nat}
      (given : ("handle", Json.natural handle) ∈ members) (small : handle < 2 ^ 64) :
      HasHandle (.object members) handle
  | list {handle : Nat} (small : handle < 2 ^ 64) : HasHandle (.list [Json.natural handle]) handle

def hasRule (entry : Entry) : Bool :=
  entry.any fun member => member.1 == "rule"

def IsRuleOf (entry : Entry) (rule : InstalledRule) : Prop :=
  ∃ body, ("rule", body) ∈ entry ∧ HasHandle body rule.handle

inductive LacksEntries : Json.Written → Prop where
  | object {members : List (List Json.TextUnit × Json.Written)}
      (others : ∀ member ∈ members, IsOtherKey member.1) : LacksEntries (.object members)
  | list : LacksEntries (.list [])

/-! ## One rule -/

theorem ruleOf?_eq_some_iff (h : body.IsDenoted) {rule : InstalledRule} :
    ruleOf? body = some rule ↔ HasHandle body rule.handle := by
  have hfield {field : Json} :
      (field.asNatural? Json.largestWord).map InstalledRule.mk = some rule ↔
        field = Json.natural rule.handle ∧ rule.handle < 2 ^ 64 := by
    rw [← asNatural?_eq_some_iff, Option.map_eq_some_iff]
    constructor
    · rintro ⟨n, hn, rfl⟩
      exact hn
    · exact fun hn => ⟨_, hn, rfl⟩
  constructor
  · intro hread
    unfold ruleOf? at hread
    split at hread
    · obtain ⟨rfl, hsmall⟩ := hfield.mp hread
      exact .list hsmall
    · obtain ⟨field, hlookup, hread⟩ := Option.bind_eq_some_iff.mp hread
      obtain ⟨rfl, hsmall⟩ := hfield.mp hread
      exact .object ((Json.lookup_eq_some_iff_mem h.ordered).mp hlookup) hsmall
    · cases hread
  · intro hhandle
    cases hhandle with
    | object given small =>
        rw [ruleOf?, (Json.lookup_eq_some_iff_mem h.ordered).mpr given, Option.bind_some]
        exact hfield.mpr ⟨rfl, small⟩
    | list small => exact hfield.mpr ⟨rfl, small⟩

theorem hasRule_eq_true_iff : hasRule entry = true ↔ ∃ body, ("rule", body) ∈ entry := by
  simp [hasRule]

theorem isRuleOf_iff (h : Json.IsDenoted (.object entry))
    (hmember : entry.member? "rule" = some body) {rule : InstalledRule} :
    IsRuleOf entry rule ↔ ruleOf? body = some rule := by
  have hbody := (member?_eq_some_iff h).mp hmember
  rw [ruleOf?_eq_some_iff (h.member hbody)]
  constructor
  · rintro ⟨other, hother, hhandle⟩
    rw [(member?_eq_some_iff h).mpr hother] at hmember
    exact Option.some.inj hmember ▸ hhandle
  · exact fun hhandle => ⟨body, hbody, hhandle⟩

/-! ## All rules -/

theorem rulesOf?_eq_some_iff (h : ∀ entry ∈ entries, Json.IsDenoted (.object entry)) :
    rulesOf? entries = some rules ↔ List.Forall₂ IsRuleOf (entries.filter hasRule) rules := by
  rw [rulesOf?, mapM_eq_some_iff]
  induction entries generalizing rules with
  | nil => simp
  | cons entry entries ih =>
      obtain ⟨hentry, hentries⟩ := List.forall_mem_cons.mp h
      -- An entry without a rule is left out on both sides, any other one stands for its body.
      cases hmember : entry.member? "rule" with
      | none =>
          have hnone : ¬hasRule entry = true := by
            rw [hasRule_eq_true_iff]
            rintro ⟨body, hbody⟩
            rw [(member?_eq_some_iff hentry).mpr hbody] at hmember
            cases hmember
          simp only [List.filterMap_cons, hmember, List.filter_cons_of_neg hnone, ih hentries]
      | some body =>
          have hrule : hasRule entry = true :=
            hasRule_eq_true_iff.mpr ⟨body, (member?_eq_some_iff hentry).mp hmember⟩
          simp only [List.filterMap_cons, hmember, List.filter_cons_of_pos hrule,
            List.forall₂_cons_left_iff, ih hentries, isRuleOf_iff hentry hmember]

theorem rules?_of_isListing (h : IsListing text entries) : rules? text = rulesOf? entries := by
  rw [rules?, entries?_of_isListing h, Option.bind_some]

theorem LacksEntries.isDocument {written : Json.Written} (h : LacksEntries written) :
    IsDocument written [] := by
  cases h with
  | object others => exact .noMember others
  | list => exact .noItem

/-- A handle for the rule of each entry that has one, and none missing. -/
theorem exists_rules_iff (h : IsListing text entries) :
    (∃ rules, List.Forall₂ IsRuleOf (entries.filter hasRule) rules) ↔
      ∀ entry ∈ entries, ∀ body, ("rule", body) ∈ entry → ∃ handle, HasHandle body handle := by
  rw [exists_forall₂_iff]
  constructor
  · intro hrules entry hentry body hbody
    have hrule : hasRule entry = true := hasRule_eq_true_iff.mpr ⟨body, hbody⟩
    have hdenoted := isDenoted_of_isListing h hentry
    obtain ⟨rule, hrule⟩ := hrules entry (List.mem_filter.mpr ⟨hentry, hrule⟩)
    rw [isRuleOf_iff hdenoted ((member?_eq_some_iff hdenoted).mpr hbody),
      ruleOf?_eq_some_iff (hdenoted.member hbody)] at hrule
    exact ⟨rule.handle, hrule⟩
  · intro hhandles entry hentry
    obtain ⟨hmem, hrule⟩ := List.mem_filter.mp hentry
    obtain ⟨body, hbody⟩ := hasRule_eq_true_iff.mp hrule
    obtain ⟨handle, hhandle⟩ := hhandles entry hmem body hbody
    exact ⟨⟨handle⟩, body, hbody, hhandle⟩

/--
A listing gives its rules just when each rule in it has a handle of 64 bits: one for each entry with
a rule, in their order, whatever stands between them. Without the member for entries there are no
rules, and a text that is no document is an error.
-/
theorem rules_are_read_in_full :
    (∀ text entries, IsListing text entries →
      ((rules? text).isSome ↔
        ∀ entry ∈ entries, ∀ body, ("rule", body) ∈ entry → ∃ handle, HasHandle body handle) ∧
      ∀ rules, rules? text = some rules ↔
        List.Forall₂ IsRuleOf (entries.filter hasRule) rules) ∧
    (∀ text entries rules, IsListing text entries → rules? text = some rules →
      rules.length = entries.countP hasRule) ∧
    (∀ text entries other others, IsListing text entries → IsListing other others →
      entries.filter hasRule = others.filter hasRule → rules? text = rules? other) ∧
    (∀ text written, Json.IsSpaced text written → LacksEntries written →
      rules? text = some []) ∧
    ∀ text, text ≠ [] → (¬∃ entries, IsListing text entries) → rules? text = none := by
  have hread {text : List Char} {entries : List Entry} (h : IsListing text entries)
      {rules : List InstalledRule} :
      rules? text = some rules ↔ List.Forall₂ IsRuleOf (entries.filter hasRule) rules := by
    rw [rules?_of_isListing h]
    exact rulesOf?_eq_some_iff fun entry => isDenoted_of_isListing h
  refine ⟨fun text entries h => ⟨?_, fun rules => hread h⟩, ?_, ?_, ?_, ?_⟩
  · rw [Option.isSome_iff_exists, ← exists_rules_iff h]
    exact exists_congr fun rules => hread h
  · intro text entries rules h hrules
    rw [List.countP_eq_length_filter, ((hread h).mp hrules).length_eq]
  · intro text entries other others h hother heq
    refine Option.ext fun rules => ?_
    rw [hread h, hread hother, heq]
  · intro text written hspaced hlacks
    rw [rules?_of_isListing ⟨written, hspaced, hlacks.isDocument⟩]
    rfl
  · intro text hne hnone
    rw [rules?, entries?_eq_none hne hnone, Option.bind_none]

def mixedChain : List Char :=
  "\x7b\"version\": 1.5, \"nftables\": [\x7b\"metainfo\": \x7b\x7d\x7d,
    \x7b\"rule\": \x7b\"handle\": 4, \"expr\": [] \x7d\x7d,
    \x7b\"rule\": [18446744073709551615]\x7d]\x7d".toList

def ruleless : List Char :=
  "[[\x7b\"table\": \x7b\"handle\": -1\x7d\x7d]]".toList

theorem mixedChain_is_read_in_full :
    rules? mixedChain = some [⟨4⟩, ⟨2 ^ 64 - 1⟩] ∧
      (∃ entries others whole, IsListing mixedChain entries ∧ IsListing ruleless others ∧
        IsListing whole (entries ++ others) ∧
        List.Forall₂ IsRuleOf (entries.filter hasRule) [⟨4⟩, ⟨2 ^ 64 - 1⟩] ∧
        (∀ entry ∈ entries, ∀ body, ("rule", body) ∈ entry → ∃ handle, HasHandle body handle) ∧
        entries.countP hasRule = 2 ∧ rules? whole = rules? mixedChain) ∧
      rules? "[]".toList = some [] ∧ rules? "[1]".toList = none := by
  obtain ⟨hread, hcount, hsame, hlacks, hnone⟩ := rules_are_read_in_full
  have hrules : rules? mixedChain = some [⟨4⟩, ⟨2 ^ 64 - 1⟩] := by decide +kernel
  obtain ⟨entries, hentries, -⟩ := Option.bind_eq_some_iff.mp hrules
  obtain ⟨others, hothers, hcounted⟩ : ∃ others, entries? ruleless = some others ∧
      others.countP hasRule = 0 := Option.map_eq_some_iff.mp (by decide +kernel)
  have hlisting := (entries?_eq_some_iff (by decide +kernel)).mp hentries
  have hmore := (entries?_eq_some_iff (by decide +kernel)).mp hothers
  obtain ⟨whole, hwhole⟩ := exists_isListing_append hlisting hmore
  have hfilter : (entries ++ others).filter hasRule = entries.filter hasRule := by
    rw [List.countP_eq_length_filter, List.length_eq_zero_iff] at hcounted
    rw [List.filter_append, hcounted, List.append_nil]
  have hempty : Json.IsSpaced "[]".toList (.list []) :=
    .mk Json.isSpace_nil (.noItems Json.isSpace_nil) Json.isSpace_nil
  have hnumber : ¬∃ entries, IsListing "[1]".toList entries := by
    rintro ⟨_, hlisting⟩
    have hread := entries?_of_isListing hlisting
    have hisNone : (entries? "[1]".toList).isNone = true := by decide +kernel
    rw [hread] at hisNone
    cases hisNone
  obtain ⟨hcomplete, hexact⟩ := hread _ _ hlisting
  have hhandles := hcomplete.mp (by rw [hrules, Option.isSome_some])
  exact ⟨hrules, ⟨entries, others, whole, hlisting, hmore, hwhole, (hexact _).mp hrules, hhandles,
      (hcount _ _ _ hlisting hrules).symm, hsame _ _ _ _ hwhole hlisting hfilter⟩,
    hlacks _ _ hempty .list, hnone _ (by decide) hnumber⟩

end Listing

end FlowFence
