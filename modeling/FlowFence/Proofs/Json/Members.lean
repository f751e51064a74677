import FlowFence.Json.Reader
import FlowFence.Proofs.Text.ByteOrder
import Mathlib.Data.List.Induction
import Mathlib.Data.List.Sort

/-!
# Members of an object

An object keeps its members in the byte order of their keys, and of the members of one key the last
one written. Both together determine it.
-/

namespace FlowFence

namespace Json

variable {key : String} {value : Json} {member : String × Json}
  {members table : List (String × Json)}

def KeyBefore (member other : String × Json) : Prop :=
  Utf8.encode member.1.toList < Utf8.encode other.1.toList

/-- Whether an object is what members written one after the other leave. -/
structure IsTableOf (members table : List (String × Json)) : Prop where
  ordered : table.Pairwise KeyBefore
  last : ∀ member, member ∈ table ↔ (members.filter (·.1 == member.1)).getLast? = some member

theorem keyBefore_iff {other : String × Json} : KeyBefore member other ↔ member.1 < other.1 :=
  Utf8.encode_lt_encode_iff.trans String.lt_iff_toList_lt.symm

instance : Std.Irrefl KeyBefore where
  irrefl _ h := List.lt_irrefl _ h

instance : Std.Antisymm KeyBefore where
  antisymm _ _ h h' := absurd h' (List.lt_asymm h)

/-! ## Putting one member -/

theorem mem_putMember_iff (h : table.Pairwise KeyBefore) :
    member ∈ putMember key value table ↔
      member = (key, value) ∨ member ∈ table ∧ member.1 ≠ key := by
  induction table with
  | nil => simp [putMember]
  | cons first rest ih =>
      obtain ⟨hfirst, hrest⟩ := List.pairwise_cons.mp h
      obtain ⟨name, old⟩ := first
      have hname {other : String × Json} (hother : other ∈ rest) : name < other.1 :=
        keyBefore_iff.mp (hfirst other hother)
      rw [putMember]
      split_ifs with hless heq
      · have hother : member ∈ (name, old) :: rest → member.1 ≠ key := by
          rintro hmem rfl
          rcases List.mem_cons.mp hmem with rfl | hmem
          · exact lt_irrefl _ hless
          · exact lt_asymm hless (hname hmem)
        grind
      · have hother : member ∈ rest → member.1 ≠ key := by
          rintro hmem rfl
          exact lt_irrefl _ (heq ▸ hname hmem)
        grind
      · grind

theorem ordered_putMember (h : table.Pairwise KeyBefore) :
    (putMember key value table).Pairwise KeyBefore := by
  induction table with
  | nil => exact List.pairwise_singleton _ _
  | cons first rest ih =>
      obtain ⟨hfirst, hrest⟩ := List.pairwise_cons.mp h
      obtain ⟨name, old⟩ := first
      rw [putMember]
      split_ifs with hless heq
      · refine List.pairwise_cons.mpr ⟨fun other hother => ?_, h⟩
        have hbefore : KeyBefore (key, value) (name, old) := keyBefore_iff.mpr hless
        rcases List.mem_cons.mp hother with rfl | hother
        · exact hbefore
        · exact List.lt_trans hbefore (hfirst other hother)
      · subst heq
        exact List.pairwise_cons.mpr ⟨hfirst, hrest⟩
      · refine List.pairwise_cons.mpr ⟨fun other hother => ?_, ih hrest⟩
        rcases (mem_putMember_iff hrest).mp hother with rfl | ⟨hother, -⟩
        · exact keyBefore_iff.mpr (lt_of_le_of_ne (not_lt.mp hless) (Ne.symm heq))
        · exact hfirst other hother

/-! ## The whole object -/

theorem isTableOf_orderMembers (members : List (String × Json)) :
    IsTableOf members (orderMembers members) := by
  induction members using List.reverseRecOn with
  | nil => exact ⟨List.Pairwise.nil, fun member => by simp [orderMembers]⟩
  | append_singleton front newest ih =>
      have hput : orderMembers (front ++ [newest]) =
          putMember newest.1 newest.2 (orderMembers front) := by
        rw [orderMembers, List.foldl_append]
        rfl
      rw [hput]
      refine ⟨ordered_putMember ih.ordered, fun member => ?_⟩
      rw [mem_putMember_iff ih.ordered, ih.last, List.filter_append]
      by_cases hkey : newest.1 = member.1
      · simp [hkey.symm, eq_comm]
      · have hother : member ≠ newest := fun heq => hkey (congrArg Prod.fst heq.symm)
        simp [hother, hkey, Ne.symm hkey]

theorem orderMembers_eq_iff : orderMembers members = table ↔ IsTableOf members table := by
  have horder := isTableOf_orderMembers members
  constructor
  · rintro rfl
    exact horder
  · intro h
    exact horder.ordered.eq_of_mem_iff h.ordered fun member =>
      (horder.last member).trans (h.last member).symm

/-- A key is looked up in an object as the one member that it has. -/
theorem lookup_eq_some_iff_mem (h : table.Pairwise KeyBefore) :
    table.lookup key = some value ↔ (key, value) ∈ table := by
  rw [List.lookup_eq_some_iff]
  constructor
  · rintro ⟨front, back, rfl, -⟩
    exact List.mem_append_right _ List.mem_cons_self
  · intro hmem
    obtain ⟨front, back, rfl⟩ := List.append_of_mem hmem
    refine ⟨front, back, rfl, fun other hother => ?_⟩
    have hbefore := (List.pairwise_append.mp h).2.2 other hother _ List.mem_cons_self
    rw [bne_iff_ne]
    rintro rfl
    exact List.lt_irrefl _ hbefore

theorem eq_of_mem_of_key (h : table.Pairwise KeyBefore) {other : String × Json}
    (hmember : member ∈ table) (hother : other ∈ table) (hkey : member.1 = other.1) :
    member = other := by
  have hlookup := (lookup_eq_some_iff_mem h).mpr hmember
  rw [hkey, (lookup_eq_some_iff_mem h).mpr hother] at hlookup
  exact Prod.ext hkey (Option.some.inj hlookup).symm

theorem member?_eq_some_iff_mem (h : table.Pairwise KeyBefore) :
    (Json.object table).member? key = some value ↔ (key, value) ∈ table := by
  rw [member?, Option.map_eq_some_iff]
  constructor
  · rintro ⟨found, hfound, rfl⟩
    have hkey : found.1 = key := by simpa using List.find?_some hfound
    rw [← hkey]
    exact List.mem_reverse.mp (List.mem_of_find?_eq_some hfound)
  · intro hmem
    obtain ⟨found, hfound⟩ : ∃ found, (table.reverse.find? fun m => m.1 == key) = some found :=
      Option.isSome_iff_exists.mp
        (List.find?_isSome.mpr ⟨_, List.mem_reverse.mpr hmem, beq_self_eq_true key⟩)
    have hkey : found.1 = key := by simpa using List.find?_some hfound
    have hmember := List.mem_reverse.mp (List.mem_of_find?_eq_some hfound)
    exact ⟨found, hfound, congrArg Prod.snd (eq_of_mem_of_key h hmember hmem hkey)⟩

end Json

end FlowFence
