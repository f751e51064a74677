import FlowFence.Proofs.Route.Cuts
import FlowFence.Proofs.Route.Division
import FlowFence.Proofs.Route.MatchLists
import FlowFence.Proofs.Traffic.Compilation

/-!
# Routes that were read

A block of a dump begins with a family name, so its header is never at fault. A route that was read
has blocks that were built and numbers that its header fields hold, and its argument is not negative
if its action is a rate: a rule can enforce it as soon as its action is one.
-/

namespace FlowFence

/-- Whether criteria are of blocks that were built and of numbers that the header fields hold. -/
structure Criteria.AreBuilt (criteria : Criteria) : Prop where
  source : ∀ network ∈ criteria.source, network.IsBuilt
  destination : ∀ network ∈ criteria.destination, network.IsBuilt
  protocol : criteria.protocol < 256
  sourcePort : criteria.sourcePort < 65536
  destinationPort : criteria.destinationPort < 65536

theorem Action.isRate_iff {action : Action} :
    action.isRate = true ↔ action = .rateBytes ∨ action = .ratePackets := by
  cases action <;> decide

theorem Action.isRate_iff_exists_rateOf {action : Action} :
    action.isRate = true ↔ ∃ unit, action.RateOf unit := by
  cases action <;> simp [isRate, RateOf]

namespace Route

variable {block : List Char} {route : Route}

/-! ## Headers -/

theorem headerLine_of_startsBlock (h : Dump.startsBlock block = true) :
    ∃ digit rest, headerLine block = 'f' :: 'l' :: 'o' :: 'w' :: digit :: rest ∧
      (digit = '4' ∨ digit = '6') := by
  obtain ⟨digit, blanks, rest, hblock, hdigit, -⟩ := Dump.startsBlock_iff.mp h
  have htrim : Text.trimStart block = block := by
    simp [hblock, Text.trimStart, show Text.isBlank 'f' = false by decide]
  have hfeed : '\n' ∉ ['f', 'l', 'o', 'w', digit] := by
    rcases hdigit with rfl | rfl <;> decide
  have hreturn : '\r' ∉ ['f', 'l', 'o', 'w', digit] := by
    rcases hdigit with rfl | rfl <;> decide
  obtain ⟨tail, hline⟩ := Text.exists_firstLine_eq_append hfeed hreturn (blanks ++ '{' :: rest)
  exact ⟨digit, tail, by rw [headerLine, htrim, hblock]; exact hline, hdigit⟩

theorem exists_header?_of_startsBlock (h : Dump.startsBlock block = true) :
    ∃ header, header? block = .ok header := by
  obtain ⟨digit, rest, hline, hdigit⟩ := headerLine_of_startsBlock h
  exact ⟨digit :: rest, header?_of_headerLine hline hdigit⟩

/-! ## Errors -/

theorem exists_fault_of_session? {group : List Char} {e : RouteError}
    (h : session? group = .error e) : ∃ fault, e = .session fault := by
  unfold session? at h
  split at h
  · split at h
    · cases h
    · cases h
      exact ⟨_, rfl⟩
  · cases h
    exact ⟨_, rfl⟩

theorem fault_or_code_of_actionAndArgument? {code argument : List Char} {e : RouteError}
    (h : actionAndArgument? code argument = .error e) :
    (∃ fault, e = .community fault) ∨ ∃ unknown, e = .action unknown := by
  unfold actionAndArgument? at h
  split at h
  · cases h
    exact .inl ⟨_, rfl⟩
  · split at h
    · cases h
      exact .inr ⟨_, rfl⟩
    · split at h
      · cases h
        exact .inl ⟨_, rfl⟩
      · split at h
        · cases h
          exact .inl ⟨_, rfl⟩
        · cases h

theorem fault_or_code_of_community? {group : List Char} {e : RouteError}
    (h : community? group = .error e) :
    (∃ fault, e = .community fault) ∨ ∃ unknown, e = .action unknown := by
  unfold community? at h
  split at h
  · exact fault_or_code_of_actionAndArgument? h
  · cases h
    exact .inl ⟨_, rfl⟩

/-- The error of a block with a header names the group that is at fault. -/
theorem fault_of_parse {header : List Char} {e : RouteError} (hheader : header? block = .ok header)
    (h : parse block = .error e) :
    (∃ fault, e = .session fault) ∨ (∃ key, e = .criterion key) ∨
      (∃ fault, e = .community fault) ∨ ∃ unknown, e = .action unknown := by
  unfold parse at h
  simp only [hheader, bind, Except.bind] at h
  cases hsession : session? (sessionGroup header) with
  | error other =>
      rw [hsession] at h
      cases h
      exact .inl (exists_fault_of_session? hsession)
  | ok session =>
      simp only [hsession] at h
      cases hcriteria : criteria? (matchGroup header) with
      | error other =>
          rw [hcriteria] at h
          cases h
          obtain ⟨key, -, hkey⟩ := addParts_eq_error_iff.mp hcriteria
          exact .inr (.inl ⟨_, hkey⟩)
      | ok criteria =>
          simp only [hcriteria] at h
          cases hcommunity : community? (communityGroup block) with
          | error other =>
              rw [hcommunity] at h
              cases h
              exact .inr (.inr (fault_or_code_of_community? hcommunity))
          | ok community => simp [hcommunity] at h

/-- No block of a dump has a header at fault. -/
theorem parse_ne_header (h : Dump.startsBlock block = true) (line : String) :
    parse block ≠ .error (.header line) := by
  intro herror
  obtain ⟨header, hheader⟩ := exists_header?_of_startsBlock h
  rcases fault_of_parse hheader herror with ⟨_, he⟩ | ⟨_, he⟩ | ⟨_, he⟩ | ⟨_, he⟩ <;> cases he

/-! ## Criteria and arguments -/

theorem isBuilt_of_denoted? {key : Key} {value : List Char} {block : Option Network}
    (h : denoted? key value = some (.inl block)) : ∀ network ∈ block, network.IsBuilt := by
  intro network hnetwork
  obtain ⟨found, rfl, hparse⟩ := exists_network_of_denoted? h
  cases hnetwork
  exact Network.isBuilt_of_parse? hparse

def Key.bound : Key → Nat
  | .protocol => 256
  | _ => 65536

theorem lt_bound_of_denoted? {key : Key} {value : List Char} {n : Nat}
    (h : denoted? key value = some (.inr n)) : n < key.bound := by
  have hport (h : (Text.word? 65535 value).map .inr = some (.inr n : Option Network ⊕ Nat)) :
      n < 65536 := by
    obtain ⟨port, hread, hport⟩ := Option.map_eq_some_iff.mp h
    cases hport
    exact Nat.lt_succ_of_le ((Text.word?_eq_some_iff.mp hread).2)
  cases key with
  | source => simp [denoted?] at h
  | destination => simp [denoted?] at h
  | sourcePort => exact hport h
  | destinationPort => exact hport h
  | protocol =>
      obtain ⟨protocol, hread, hprotocol⟩ := Option.map_eq_some_iff.mp h
      cases hprotocol
      exact Nat.lt_succ_of_le (of_decide_eq_true (Option.filter_eq_some_iff.mp hread).2)

theorem areBuilt_of_criteria? {group : List Char} {criteria : Criteria}
    (h : criteria? group = .ok criteria) : criteria.AreBuilt := by
  have hblock {key : Key} {block : Option Network} (hinitial : entry {} key = .inl none)
      (hentry : entry criteria key = .inl block) : ∀ network ∈ block, network.IsBuilt := by
    rcases open_or_denoted h key with hopen | ⟨value, hvalue⟩
    · rw [hentry, hinitial] at hopen
      cases hopen
      simp
    · rw [hentry] at hvalue
      exact isBuilt_of_denoted? hvalue
  have hnumber {key : Key} {n : Nat} (hinitial : entry {} key = .inr 0)
      (hentry : entry criteria key = .inr n) : n < key.bound := by
    rcases open_or_denoted h key with hopen | ⟨value, hvalue⟩
    · rw [hentry, hinitial] at hopen
      cases hopen
      cases key <;> decide
    · rw [hentry] at hvalue
      exact lt_bound_of_denoted? hvalue
  exact {
    source := @hblock .source _ rfl rfl
    destination := @hblock .destination _ rfl rfl
    protocol := @hnumber .protocol _ rfl rfl
    sourcePort := @hnumber .sourcePort _ rfl rfl
    destinationPort := @hnumber .destinationPort _ rfl rfl }

theorem nonneg_of_community? {group : List Char} {action : Action} {n : Int}
    (h : community? group = .ok (action, n)) (hrate : action.isRate = true) : 0 ≤ n := by
  obtain ⟨-, -, _, _, -, -, hread⟩ := exists_fields_of_community? h
  exact (actionAndArgument?_eq_ok_iff.mp hread).2.2 hrate

/-! ## Routes -/

theorem areBuilt_of_parse (h : parse block = .ok route) : route.criteria.AreBuilt := by
  obtain ⟨-, -, hcriteria, -⟩ := parse_eq_ok_iff.mp h
  exact areBuilt_of_criteria? hcriteria

/-- What is read can be enforced if its action is a rate. -/
theorem isEnforceable_of_parse (h : parse block = .ok route) (hrate : route.action.isRate = true) :
    route.IsEnforceable := by
  obtain ⟨-, -, -, hcommunity⟩ := parse_eq_ok_iff.mp h
  have hbuilt := areBuilt_of_parse h
  exact {
    action := Action.isRate_iff_exists_rateOf.mp hrate
    argument := nonneg_of_community? hcommunity hrate
    source := hbuilt.source
    destination := hbuilt.destination
    protocol := hbuilt.protocol
    sourcePort := hbuilt.sourcePort
    destinationPort := hbuilt.destinationPort }

end Route

end FlowFence
