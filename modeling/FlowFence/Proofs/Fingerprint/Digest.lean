import FlowFence.Fingerprint.Basic
import FlowFence.Proofs.Json.Compact
import FlowFence.Proofs.Text.Utf8
import Mathlib.Data.List.Forall2
import Mathlib.Data.List.Sort

/-!
# What fingerprints tell apart

As long as no two of the messages that are digested have one digest, two rule lists have one
fingerprint just when they are of one length and the JSON texts of their rules have, place by place,
the same bytes up to order.
-/

namespace FlowFence

/-- Whether no two of some messages have one digest. -/
def Md5.CollisionFree (messages : List (List UInt8)) : Prop :=
  ∀ a ∈ messages, ∀ b ∈ messages, digest a = digest b → a = b

theorem Md5.CollisionFree.subset {messages others : List (List UInt8)} (h : CollisionFree others)
    (hsubset : messages ⊆ others) : CollisionFree messages :=
  fun a ha b hb => h a (hsubset ha) b (hsubset hb)

theorem Md5.collisionFree_pair {a b : List UInt8} (h : digest a ≠ digest b) :
    CollisionFree [a, b] := by
  intro x hx y hy hdigest
  rcases List.mem_pair.mp hx with rfl | rfl <;> rcases List.mem_pair.mp hy with rfl | rfl
  · rfl
  · exact (h hdigest).elim
  · exact (h hdigest.symm).elim
  · rfl

namespace Fingerprint

def messages (programs : List Program) : List (List UInt8) :=
  Utf8.encode (sumsText (programs.map sumOf)) :: programs.map sortedBytes

/-- Whether the JSON texts of two programs have the same bytes up to order. -/
def SameBytes (p q : Program) : Prop :=
  (Utf8.encode p.serialized).Perm (Utf8.encode q.serialized)

/-! ## The inner digests -/

theorem sortedBytes_perm (program : Program) :
    (sortedBytes program).Perm (Utf8.encode program.serialized) :=
  List.mergeSort_perm _ _

theorem pairwise_sortedBytes (program : Program) : (sortedBytes program).Pairwise (· ≤ ·) :=
  List.pairwise_mergeSort' (· ≤ ·) _

/-- The bytes of a given program are sorted by evaluation through the simpler algorithm. -/
theorem sortedBytes_eq_insertionSort (program : Program) :
    sortedBytes program = (Utf8.encode program.serialized).insertionSort (· ≤ ·) :=
  List.mergeSort_eq_insertionSort (· ≤ ·) _

theorem sortedBytes_eq_iff {p q : Program} : sortedBytes p = sortedBytes q ↔ SameBytes p q := by
  constructor
  · intro h
    have hq := sortedBytes_perm q
    rw [← h] at hq
    exact (sortedBytes_perm p).symm.trans hq
  · intro h
    have hperm := ((sortedBytes_perm p).trans h).trans (sortedBytes_perm q).symm
    exact hperm.eq_of_pairwise (fun _ _ _ _ => UInt8.le_antisymm) (pairwise_sortedBytes p)
      (pairwise_sortedBytes q)

/-! ## The outer digest -/

theorem isExact_bytes (values : List UInt8) : (Json.bytes values).IsExact := by
  refine .list _ fun item hitem => ?_
  obtain ⟨b, -, rfl⟩ := List.mem_map.mp hitem
  exact .integer _

theorem bytes_injective {a b : List UInt8} (h : Json.bytes a = Json.bytes b) : a = b := by
  refine List.map_injective_iff.mpr ?_ (Json.list.inj h)
  intro x y hxy
  exact UInt8.toNat_inj.mp (Int.ofNat.inj (Json.integer.inj hxy))

theorem sumsText_injective {a b : List (List UInt8)} (h : sumsText a = sumsText b) : a = b := by
  have hexact (sums : List (List UInt8)) : (Json.list (sums.map Json.bytes)).IsExact := by
    refine .list _ fun item hitem => ?_
    obtain ⟨sum, -, rfl⟩ := List.mem_map.mp hitem
    exact isExact_bytes sum
  have hlists := Json.list.inj (Json.compact_injective (hexact a) (hexact b) h)
  exact List.map_injective_iff.mpr (fun _ _ => bytes_injective) hlists

theorem map_sumOf_eq_iff {p q : List Program}
    (h : Md5.CollisionFree (messages p ++ messages q)) :
    p.map sumOf = q.map sumOf ↔ List.Forall₂ SameBytes p q := by
  have hsum : ∀ a ∈ p, ∀ b ∈ q, (sumOf a = sumOf b ↔ SameBytes a b) := by
    intro a ha b hb
    have hleft : sortedBytes a ∈ messages p ++ messages q :=
      List.mem_append_left _ (List.mem_cons_of_mem _ (List.mem_map_of_mem ha))
    have hright : sortedBytes b ∈ messages p ++ messages q :=
      List.mem_append_right _ (List.mem_cons_of_mem _ (List.mem_map_of_mem hb))
    rw [← sortedBytes_eq_iff]
    exact ⟨h _ hleft _ hright, congrArg Md5.digest⟩
  clear h
  induction p generalizing q with
  | nil => cases q <;> simp
  | cons a p ih =>
      cases q with
      | nil => simp
      | cons b q =>
          have hhead := hsum a List.mem_cons_self b List.mem_cons_self
          have htail : p.map sumOf = q.map sumOf ↔ List.Forall₂ SameBytes p q := ih fun a ha b hb =>
            hsum a (List.mem_cons_of_mem _ ha) b (List.mem_cons_of_mem _ hb)
          rw [List.map_cons, List.map_cons, List.cons.injEq, List.forall₂_cons, hhead, htail]

/-- Fingerprints are equal just when the rules are of the same bytes, place by place. -/
theorem ofPrograms_eq_iff {p q : List Program}
    (h : Md5.CollisionFree (messages p ++ messages q)) :
    ofPrograms p = ofPrograms q ↔ List.Forall₂ SameBytes p q := by
  have hp : Utf8.encode (sumsText (p.map sumOf)) ∈ messages p ++ messages q := by
    simp [messages]
  have hq : Utf8.encode (sumsText (q.map sumOf)) ∈ messages p ++ messages q := by
    simp [messages]
  rw [← map_sumOf_eq_iff h]
  constructor
  · intro heq
    have htext := h _ hp _ hq (Fingerprint.mk.inj heq)
    exact sumsText_injective (Utf8.encode_injective htext)
  · intro hsums
    rw [ofPrograms, hsums, ← ofPrograms]

/-- Rule lists of one fingerprint whose messages are among others without a collision. -/
theorem sameBytes_of_subset {p q : List Program} {all : List (List UInt8)}
    (hfree : Md5.CollisionFree all) (hp : messages p ⊆ all) (hq : messages q ⊆ all)
    (h : ofPrograms p = ofPrograms q) : List.Forall₂ SameBytes p q := by
  have hpair := hfree.subset (List.append_subset.mpr ⟨hp, hq⟩)
  exact (ofPrograms_eq_iff hpair).mp h

theorem ofPrograms_ne_zero {programs : List Program} {all : List (List UInt8)}
    (hsubset : messages programs ⊆ all)
    (hnonzero : ∀ message ∈ all, Md5.digest message ≠ zero.bytes) : ofPrograms programs ≠ .zero := by
  intro hzero
  have hmessage := hnonzero _ (hsubset List.mem_cons_self)
  exact hmessage (congrArg bytes hzero)

end Fingerprint

/--
If no two of the messages digested for two rule sets have one digest, the rule sets have one
fingerprint just when they have as many rules and the JSON texts of the rules at each place have the
same bytes up to order. So another number of rules, or other bytes at any place, are told apart,
and no rule set is told apart from itself in another chain.
-/
theorem fingerprint_tells_bytes_apart (a b : RuleSet)
    (h : Md5.CollisionFree
      (Fingerprint.messages a.programs ++ Fingerprint.messages b.programs)) :
    (a.fingerprint = b.fingerprint ↔
      a.programs.length = b.programs.length ∧
        ∀ (i : Nat) (ha : i < a.programs.length) (hb : i < b.programs.length),
          Fingerprint.SameBytes a.programs[i] b.programs[i]) ∧
    (a.programs.length ≠ b.programs.length → a.fingerprint ≠ b.fingerprint) ∧
    (∀ (i : Nat) (ha : i < a.programs.length) (hb : i < b.programs.length),
      ¬ Fingerprint.SameBytes a.programs[i] b.programs[i] → a.fingerprint ≠ b.fingerprint) ∧
    ∀ chain, RuleSet.fingerprint { a with chain := chain } = a.fingerprint := by
  have hiff : a.fingerprint = b.fingerprint ↔
      a.programs.length = b.programs.length ∧
        ∀ (i : Nat) (ha : i < a.programs.length) (hb : i < b.programs.length),
          Fingerprint.SameBytes a.programs[i] b.programs[i] := by
    rw [RuleSet.fingerprint, RuleSet.fingerprint, Fingerprint.ofPrograms_eq_iff h,
      List.forall₂_iff_get]
    rfl
  refine ⟨hiff, ?_, ?_, fun chain => rfl⟩
  · intro hcount hsame
    exact hcount (hiff.mp hsame).1
  · intro i ha hb hbytes hsame
    exact hbytes ((hiff.mp hsame).2 i ha hb)

def byteRule (value : UInt8) : Program :=
  [.compare 1 [value], .drop]

theorem sortedBytes_byteRule :
    Fingerprint.sortedBytes (byteRule 61) = Fingerprint.sortedBytes (byteRule 16) := by
  rw [Fingerprint.sortedBytes_eq_insertionSort, Fingerprint.sortedBytes_eq_insertionSort]
  decide +kernel

theorem sumOf_byteRule : Fingerprint.sumOf (byteRule 16) =
    [253, 202, 45, 122, 178, 198, 69, 84, 85, 77, 214, 142, 215, 248, 193, 241] := by
  rw [Fingerprint.sumOf, Fingerprint.sortedBytes_eq_insertionSort]
  decide +kernel

theorem collisionFree_byteRules :
    Md5.CollisionFree
      (Fingerprint.messages [byteRule 16] ++ Fingerprint.messages [byteRule 61]) := by
  have hsum : Fingerprint.sumOf (byteRule 61) = Fingerprint.sumOf (byteRule 16) :=
    congrArg Md5.digest sortedBytes_byteRule
  have hmessages : Fingerprint.messages [byteRule 61] = Fingerprint.messages [byteRule 16] := by
    simp [Fingerprint.messages, hsum, sortedBytes_byteRule]
  have hdiffer : (Fingerprint.ofPrograms [byteRule 16]).bytes ≠
      Fingerprint.sumOf (byteRule 16) := by
    rw [Fingerprint.ofPrograms, List.map_singleton, sumOf_byteRule]
    decide +kernel
  rw [hmessages]
  exact (Md5.collisionFree_pair hdiffer).subset (by simp [Fingerprint.messages])

/-- The numbers 16 and 61 have the same digits, so rules that differ in them alone look the same. -/
theorem swapped_digits_are_not_told_apart :
    RuleSet.fingerprint ⟨⟨"filter", "flowspec"⟩, [byteRule 16]⟩ =
      RuleSet.fingerprint ⟨⟨"raw", "ddos"⟩, [byteRule 61]⟩ := by
  obtain ⟨hiff, -⟩ := fingerprint_tells_bytes_apart ⟨⟨"filter", "flowspec"⟩, [byteRule 16]⟩
    ⟨⟨"raw", "ddos"⟩, [byteRule 61]⟩ collisionFree_byteRules
  refine hiff.mpr ⟨rfl, fun i ha hb => ?_⟩
  have hzero : i = 0 := Nat.lt_one_iff.mp ha
  subst hzero
  exact Fingerprint.sortedBytes_eq_iff.mp sortedBytes_byteRule.symm

end FlowFence
