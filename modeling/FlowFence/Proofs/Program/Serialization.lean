import FlowFence.Proofs.Fingerprint.Digest

/-!
# Serialized programs

No two programs have one JSON text, nor the same bytes in the same order. So two programs of one sum
have the same bytes in another order, or else two messages of one digest have been found.
-/

namespace FlowFence

def Md5.Collide (a b : List UInt8) : Prop :=
  a ≠ b ∧ digest a = digest b

/-- Whether the JSON texts of two programs differ in the order of their bytes alone. -/
def Fingerprint.Reordered (p q : Program) : Prop :=
  Utf8.encode p.serialized ≠ Utf8.encode q.serialized ∧ SameBytes p q

/-! ## Expressions -/

namespace Expression

theorem bytes_inj {a b : List UInt8} : Json.bytes a = Json.bytes b ↔ a = b :=
  ⟨Fingerprint.bytes_injective, congrArg Json.bytes⟩

theorem headerName_inj {a b : Header} : headerName a = headerName b ↔ a = b := by
  cases a <;> cases b <;> decide

theorem unitName_inj {a b : LimitUnit} : unitName a = unitName b ↔ a = b := by
  cases a <;> cases b <;> decide

/-- The one member is named for the kind of the expression, and every field has its place in it. -/
theorem toJson_inj {e f : Expression} : e.toJson = f.toJson ↔ e = f := by
  cases e <;> cases f <;>
    simp [toJson, Json.keyed, Json.natural_inj, bytes_inj, headerName_inj, unitName_inj]

theorem isExact_keyed {key : String} {fields : List (String × Json)}
    (h : ∀ field ∈ fields, field.2.IsExact) : (Json.keyed key (.object fields)).IsExact := by
  refine .object _ fun member hmember => ?_
  rw [List.mem_singleton.mp hmember]
  exact .object fields h

/-- No number in an expression is kept as a literal. -/
theorem isExact_toJson (e : Expression) : e.toJson.IsExact := by
  have hnatural (n : Nat) : (Json.natural n).IsExact := .integer _
  have htext (text : String) : (Json.text text).IsExact := .text text
  have hflag (flag : Bool) : (Json.boolean flag).IsExact := .boolean flag
  cases e <;> refine isExact_keyed ?_ <;>
    simp [hnatural, htext, hflag, Fingerprint.isExact_bytes]

end Expression

/-! ## Programs -/

namespace Program

theorem isExact_toJson (program : Program) : program.toJson.IsExact := by
  refine .object _ fun member hmember => ?_
  rw [List.mem_singleton.mp hmember]
  refine .list _ fun item hitem => ?_
  obtain ⟨e, -, rfl⟩ := List.mem_map.mp hitem
  exact e.isExact_toJson

theorem toJson_injective {p q : Program} (h : p.toJson = q.toJson) : p = q := by
  have hlists : p.map Expression.toJson = q.map Expression.toJson := by
    simpa [toJson] using h
  exact List.map_injective_iff.mpr (fun _ _ => Expression.toJson_inj.mp) hlists

theorem serialized_inj {p q : Program} : p.serialized = q.serialized ↔ p = q := by
  refine ⟨fun h => toJson_injective ?_, congrArg serialized⟩
  exact Json.compact_injective p.isExact_toJson q.isExact_toJson h

theorem encode_serialized_inj {p q : Program} :
    Utf8.encode p.serialized = Utf8.encode q.serialized ↔ p = q :=
  ⟨fun h => serialized_inj.mp (Utf8.encode_injective h), fun h => h ▸ rfl⟩

end Program

/--
Programs are told apart by their JSON texts, and by the bytes of these. The programs of one sum are
those whose bytes are the same in another order, and those whose sorted bytes are different messages
of one digest.
-/
theorem serialized_programs_are_told_apart (p q : Program) :
    (p.serialized = q.serialized ↔ p = q) ∧
    (Utf8.encode p.serialized = Utf8.encode q.serialized ↔ p = q) ∧
    (p ≠ q ∧ Fingerprint.sumOf p = Fingerprint.sumOf q ↔
      Fingerprint.Reordered p q ∨
        Md5.Collide (Fingerprint.sortedBytes p) (Fingerprint.sortedBytes q)) := by
  refine ⟨Program.serialized_inj, Program.encode_serialized_inj, ?_⟩
  rw [Fingerprint.Reordered, Md5.Collide, ne_eq (Utf8.encode _), Program.encode_serialized_inj,
    ← Fingerprint.sortedBytes_eq_iff]
  constructor
  · rintro ⟨hne, hsum⟩
    by_cases hbytes : Fingerprint.sortedBytes p = Fingerprint.sortedBytes q
    · exact .inl ⟨hne, hbytes⟩
    · exact .inr ⟨hbytes, hsum⟩
  · rintro (⟨hne, hbytes⟩ | ⟨hbytes, hdigest⟩)
    · exact ⟨hne, congrArg Md5.digest hbytes⟩
    · exact ⟨fun heq => hbytes (congrArg Fingerprint.sortedBytes heq), hdigest⟩

end FlowFence
