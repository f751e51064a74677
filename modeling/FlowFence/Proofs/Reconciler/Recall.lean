import FlowFence.Proofs.Fingerprint.Digest
import FlowFence.Proofs.Reconciler.Exits

/-!
# What the reconciler remembers

The fingerprint that the reconciler keeps is zero or that of rules which were compiled from a dump
given before. What is known of these rules need only be kept by steps from which the filter takes
nothing, and be true of rules that it takes. Fingerprints tell the rules of all those dumps apart up
to the order of bytes, so what is known of the rules remembered is known of those found in place.
-/

namespace FlowFence

namespace Reconciler

theorem believed_eq_or (lastApplied : Fingerprint) (listed : Except GatewayError Nat)
    (rules : Nat) :
    believed lastApplied listed rules = lastApplied ∨
      believed lastApplied listed rules = .zero := by
  unfold believed
  split
  · split
    · exact .inl rfl
    · exact .inr rfl
  · exact .inr rfl

/-- A fingerprint that is not zero is believed only if it is remembered. -/
theorem lastApplied_eq_of_believed {programs : List Program} {lastApplied : Fingerprint}
    {listed : Except GatewayError Nat} {rules : Nat}
    (h : Fingerprint.ofPrograms programs = believed lastApplied listed rules)
    (hnonzero : Fingerprint.ofPrograms programs ≠ .zero) :
    lastApplied = .ofPrograms programs := by
  rcases believed_eq_or lastApplied listed rules with hkept | hzero
  · exact (h.trans hkept).symm
  · exact (hnonzero (h.trans hzero)).elim

/-! ## What is digested -/

/-- The messages that are digested in a tick whose query ends in the given way. -/
def digested (setup : Setup) : Except FetchError (List Char) → List (List UInt8)
  | .ok dump => Fingerprint.messages (programsOf setup.counters dump)
  | .error _ => []

def CompiledFrom (setup : Setup) (queries : List (Except FetchError (List Char)))
    (programs : List Program) : Prop :=
  ∃ dump, .ok dump ∈ queries ∧ programs = programsOf setup.counters dump

section Rules

variable {setup : Setup} {queries : List (Except FetchError (List Char))}
  {query : Except FetchError (List Char)} {dump : List Char} {programs others : List Program}

namespace CompiledFrom

theorem append (h : CompiledFrom setup queries programs)
    (more : List (Except FetchError (List Char))) :
    CompiledFrom setup (queries ++ more) programs := by
  obtain ⟨dump, hdump, hprograms⟩ := h
  exact ⟨dump, List.mem_append_left more hdump, hprograms⟩

theorem last (queries : List (Except FetchError (List Char))) (hquery : query = .ok dump) :
    CompiledFrom setup (queries ++ [query]) (programsOf setup.counters dump) :=
  ⟨dump, by simp [hquery], rfl⟩

theorem messages_subset (h : CompiledFrom setup queries programs) :
    Fingerprint.messages programs ⊆ queries.flatMap (digested setup) := by
  obtain ⟨dump, hdump, rfl⟩ := h
  exact fun message hmessage => List.mem_flatMap.mpr ⟨.ok dump, hdump, hmessage⟩

theorem sameBytes (h : CompiledFrom setup queries programs)
    (hothers : CompiledFrom setup queries others)
    (hfree : Md5.CollisionFree (queries.flatMap (digested setup)))
    (hsame : Fingerprint.ofPrograms programs = .ofPrograms others) :
    List.Forall₂ Fingerprint.SameBytes programs others :=
  Fingerprint.sameBytes_of_subset hfree h.messages_subset hothers.messages_subset hsame

end CompiledFrom

/-! ## What is remembered -/

variable {memory : Memory} {conditions : Conditions} {tick : Tick} {lastApplied : Fingerprint}
  {holds holdsNow : List Program → Prop}

/--
Whether a fingerprint is zero, or that of rules which were compiled from a dump of the given queries
and of which the given property holds.
-/
def Recalls (setup : Setup) (queries : List (Except FetchError (List Char)))
    (lastApplied : Fingerprint) (holds : List Program → Prop) : Prop :=
  lastApplied = .zero ∨ ∃ programs, lastApplied = .ofPrograms programs ∧
    CompiledFrom setup queries programs ∧ holds programs

theorem Recalls.kept (h : Recalls setup queries lastApplied holds)
    (query : Except FetchError (List Char)) {now : Fingerprint}
    (hnow : now = lastApplied ∨ now = .zero)
    (hholds : ∀ programs, holds programs → holdsNow programs) :
    Recalls setup (queries ++ [query]) now holdsNow := by
  rcases hnow with rfl | hzero
  · rcases h with hforgotten | ⟨programs, hremembered, hcompiled, hprograms⟩
    · exact .inl hforgotten
    · exact .inr ⟨programs, hremembered, hcompiled.append [query], hholds programs hprograms⟩
  · exact .inl hzero

/-- One tick, however it ends: what it remembers is kept, forgotten, or taken by the filter. -/
theorem Exit.recalls (hexit : Exit setup memory conditions tick)
    (h : Recalls setup queries memory.lastApplied holds)
    (hkept : (Step.mk conditions tick).committed? = none →
      ∀ programs, holds programs → holdsNow programs)
    (htaken : ∀ programs, (Step.mk conditions tick).committed? =
      some (.replaceChain setup.chain programs) → holdsNow programs) :
    Recalls setup (queries ++ [conditions.fetched]) tick.memory.lastApplied holdsNow := by
  cases hexit with
  | unfetched cause fetched => exact h.kept _ (.inl rfl) (hkept (Step.committed?_of_idle rfl))
  | unchanged dump programs fetched hprograms same =>
      refine h.kept _ ?_ (hkept (Step.committed?_of_idle rfl))
      dsimp only
      rw [same]
      exact believed_eq_or _ _ _
  | cancelled dump programs fetched hprograms differs cancelled =>
      exact h.kept _ (believed_eq_or _ _ _) (hkept (Step.committed?_of_idle rfl))
  | failed dump programs cause fetched hprograms differs cancelled commit =>
      exact h.kept _ (believed_eq_or _ _ _) (hkept (Step.committed?_of_failure commit))
  | applied dump programs fetched hprograms differs cancelled commit =>
      subst hprograms
      refine .inr ⟨_, rfl, .last queries fetched, htaken _ ?_⟩
      exact Step.committed?_eq_some_iff.mpr ⟨rfl, commit⟩

/-- Rules that a tick finds in place have the bytes of rules that are remembered. -/
theorem Exit.exists_recalled (hexit : Exit setup memory conditions tick)
    {fingerprint : Fingerprint} (hresult : tick.result = .ok (.unchanged fingerprint))
    (h : Recalls setup queries memory.lastApplied holds)
    (hfree : Md5.CollisionFree ((queries ++ [conditions.fetched]).flatMap (digested setup)))
    (hnonzero : ∀ message ∈ (queries ++ [conditions.fetched]).flatMap (digested setup),
      Md5.digest message ≠ Fingerprint.zero.bytes) :
    ∃ dump programs, conditions.fetched = .ok dump ∧ tick.attempted = none ∧ holds programs ∧
      List.Forall₂ Fingerprint.SameBytes programs (programsOf setup.counters dump) := by
  obtain ⟨dump, _, hfetched, rfl, -, same, hidle⟩ := hexit.of_unchanged hresult
  have hlast : CompiledFrom setup (queries ++ [conditions.fetched])
      (programsOf setup.counters dump) := .last queries hfetched
  have hdigest := Fingerprint.ofPrograms_ne_zero hlast.messages_subset hnonzero
  have hremembered := lastApplied_eq_of_believed same hdigest
  rcases h with hforgotten | ⟨programs, hrecalled, hcompiled, hprograms⟩
  · exact (hdigest (hremembered.symm.trans hforgotten)).elim
  · have hsame := (hcompiled.append [conditions.fetched]).sameBytes hlast hfree
      (hrecalled.symm.trans hremembered)
    exact ⟨dump, programs, hfetched, hidle, hprograms, hsame⟩

end Rules

end Reconciler

end FlowFence
