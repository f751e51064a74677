import FlowFence.Listing
import FlowFence.Proofs.Json.Meaning

/-!
# Documents of a listing

Which texts are documents that hold given entries, said without the reader. It accepts these and
nothing else, and what it reads from each are the entries that the document holds.
-/

namespace FlowFence

namespace Listing

variable {written value : Json.Written} {entries found : List Entry}
  {key : List Json.TextUnit} {members : List (List Json.TextUnit × Json.Written)}

/-- Whether a written value inside a document denotes a list of objects, the entries. -/
def DenotesEntries (written : Json.Written) (entries : List Entry) : Prop :=
  Json.Denotes (Json.deepestNesting - 1) written (.list (entries.map Json.object))

/-- Whether a key is a text, but not the name of the member that holds the entries. -/
def IsOtherKey (key : List Json.TextUnit) : Prop :=
  ∃ name, Json.Spells key name ∧ name ≠ entriesKey

/--
Whether a written value is a document that holds entries: an object with one member for them or
none, or a list of the value of that member or of nothing.
-/
inductive IsDocument : Json.Written → List Entry → Prop where
  | object {front behind : List (List Json.TextUnit × Json.Written)} {key : List Json.TextUnit}
      {value : Json.Written} {entries : List Entry}
      (others : ∀ member ∈ front ++ behind, IsOtherKey member.1)
      (named : Json.Spells key entriesKey) (held : DenotesEntries value entries) :
      IsDocument (.object (front ++ (key, value) :: behind)) entries
  | noMember {members : List (List Json.TextUnit × Json.Written)}
      (others : ∀ member ∈ members, IsOtherKey member.1) : IsDocument (.object members) []
  | list {value : Json.Written} {entries : List Entry} (held : DenotesEntries value entries) :
      IsDocument (.list [value]) entries
  | noItem : IsDocument (.list []) []

def IsListing (text : List Char) (entries : List Entry) : Prop :=
  ∃ written, Json.IsSpaced text written ∧ IsDocument written entries

/-! ## Entries -/

theorem mapM_eq_some_iff {α β : Type} {f : α → Option β} {items : List α} {values : List β} :
    items.mapM f = some values ↔
      List.Forall₂ (fun item value => f item = some value) items values := by
  induction items generalizing values with
  | nil => simp [eq_comm]
  | cons item items ih =>
      simp only [List.mapM_cons, Option.bind_eq_bind, Option.bind_eq_some_iff, Option.pure_def,
        Option.some_inj, List.forall₂_cons_left_iff, ih]
      constructor
      · rintro ⟨value, hvalue, others, hothers, rfl⟩
        exact ⟨value, others, hvalue, hothers, rfl⟩
      · rintro ⟨value, others, hvalue, hothers, rfl⟩
        exact ⟨value, hvalue, others, hothers, rfl⟩

theorem exists_forall₂_iff {α β : Type} {related : α → β → Prop} {items : List α} :
    (∃ values, List.Forall₂ related items values) ↔
      ∀ item ∈ items, ∃ value, related item value := by
  induction items with
  | nil => simp
  | cons item items ih =>
      simp only [List.forall₂_cons_left_iff, List.forall_mem_cons, ← ih]
      constructor
      · rintro ⟨_, value, values, hvalue, hvalues, rfl⟩
        exact ⟨⟨value, hvalue⟩, values, hvalues⟩
      · rintro ⟨⟨value, hvalue⟩, values, hvalues⟩
        exact ⟨_, value, values, hvalue, hvalues, rfl⟩

theorem entryOf?_eq_some_iff {body : Json} {entry : Entry} :
    entryOf? body = some entry ↔ body = .object entry := by
  cases body <;> simp [entryOf?]

theorem mapM_entryOf?_eq_some_iff {items : List Json} :
    items.mapM entryOf? = some entries ↔ items = entries.map Json.object := by
  rw [mapM_eq_some_iff, ← List.forall₂_eq_eq_eq, List.forall₂_map_right_iff]
  simp only [entryOf?_eq_some_iff]

theorem entriesOfWritten?_eq_some_iff :
    entriesOfWritten? written = some entries ↔ DenotesEntries written entries := by
  rw [DenotesEntries, ← Json.ofWritten?_eq_some_iff, entriesOfWritten?]
  constructor
  · intro h
    split at h
    · rename_i items hitems
      rw [hitems, mapM_entryOf?_eq_some_iff.mp h]
    · cases h
  · intro h
    rw [h]
    exact mapM_entryOf?_eq_some_iff.mpr rfl

/-! ## Members -/

theorem entriesOfMembers?_other (h : IsOtherKey key) (found : Option (List Entry)) :
    entriesOfMembers? found ((key, value) :: members) = entriesOfMembers? found members := by
  obtain ⟨name, hspells, hname⟩ := h
  simp [entriesOfMembers?, Json.textOfUnits?_eq_some_iff.mpr hspells, hname]

theorem entriesOfMembers?_entries (h : Json.Spells key entriesKey) :
    entriesOfMembers? none ((key, value) :: members) =
      (entriesOfWritten? value).bind fun entries => entriesOfMembers? (some entries) members := by
  cases hentries : entriesOfWritten? value <;>
    simp [entriesOfMembers?, Json.textOfUnits?_eq_some_iff.mpr h, hentries]

theorem spells_or_isOtherKey {found : Option (List Entry)}
    (h : entriesOfMembers? found ((key, value) :: members) = some entries) :
    found = none ∧ Json.Spells key entriesKey ∨ IsOtherKey key := by
  unfold entriesOfMembers? at h
  split at h
  · cases h
  · rename_i name hname
    have hspells := Json.textOfUnits?_eq_some_iff.mp hname
    split at h
    · subst name
      split at h
      · exact .inl ⟨rfl, hspells⟩
      · cases h
    · exact .inr ⟨name, hspells, ‹_›⟩

theorem entriesOfMembers?_found :
    entriesOfMembers? (some found) members = some entries ↔
      (∀ member ∈ members, IsOtherKey member.1) ∧ found = entries := by
  induction members with
  | nil => simp [entriesOfMembers?]
  | cons member members ih =>
      rw [List.forall_mem_cons, and_assoc]
      constructor
      · intro h
        obtain ⟨hnone, -⟩ | hother := spells_or_isOtherKey h
        · cases hnone
        · exact ⟨hother, ih.mp (entriesOfMembers?_other hother _ ▸ h)⟩
      · rintro ⟨hother, hrest⟩
        exact (entriesOfMembers?_other hother _).trans (ih.mpr hrest)

/-- The members up to the one that holds the entries, which need not be there. -/
theorem isDocument_of_entriesOfMembers? (h : entriesOfMembers? none members = some entries) :
    IsDocument (.object members) entries := by
  induction members with
  | nil =>
      cases h
      exact .noMember (List.forall_mem_nil _)
  | cons member members ih =>
      obtain ⟨key, value⟩ := member
      obtain ⟨-, hspells⟩ | hother := spells_or_isOtherKey h
      · rw [entriesOfMembers?_entries hspells] at h
        obtain ⟨found, hfound, hrest⟩ := Option.bind_eq_some_iff.mp h
        obtain ⟨hothers, rfl⟩ := entriesOfMembers?_found.mp hrest
        have hheld := entriesOfWritten?_eq_some_iff.mp hfound
        exact @IsDocument.object [] members _ _ _ hothers hspells hheld
      · rw [entriesOfMembers?_other hother] at h
        cases ih h with
        | @object front behind _ _ _ others named held =>
            have hothers : ∀ member ∈ (key, value) :: (front ++ behind), IsOtherKey member.1 :=
              List.forall_mem_cons.mpr ⟨hother, others⟩
            exact @IsDocument.object ((key, value) :: front) behind _ _ _ hothers named held
        | noMember others => exact .noMember (List.forall_mem_cons.mpr ⟨hother, others⟩)

theorem entriesOfMembers?_append {front : List (List Json.TextUnit × Json.Written)}
    (h : ∀ member ∈ front, IsOtherKey member.1) (found : Option (List Entry)) :
    entriesOfMembers? found (front ++ members) = entriesOfMembers? found members := by
  induction front with
  | nil => rfl
  | cons member front ih =>
      obtain ⟨hmember, hfront⟩ := List.forall_mem_cons.mp h
      exact (entriesOfMembers?_other hmember found).trans (ih hfront)

theorem entriesOfDocument?_eq_some_iff :
    entriesOfDocument? written = some entries ↔ IsDocument written entries := by
  constructor
  · intro h
    unfold entriesOfDocument? at h
    split at h
    · exact isDocument_of_entriesOfMembers? h
    · cases h
      exact .noItem
    · exact .list (entriesOfWritten?_eq_some_iff.mp h)
    · cases h
  · intro h
    cases h with
    | object others named held =>
        obtain ⟨hfront, hbehind⟩ := List.forall_mem_append.mp others
        rw [entriesOfDocument?, entriesOfMembers?_append hfront, entriesOfMembers?_entries named,
          entriesOfWritten?_eq_some_iff.mpr held]
        exact entriesOfMembers?_found.mpr ⟨hbehind, rfl⟩
    | noMember others =>
        rename_i members
        rw [entriesOfDocument?, ← List.append_nil members, entriesOfMembers?_append others]
        rfl
    | list held => exact entriesOfWritten?_eq_some_iff.mpr held
    | noItem => rfl

/-- A text is read as the entries that it holds as a document. -/
theorem entries?_eq_some_iff {text : List Char} (h : text ≠ []) :
    entries? text = some entries ↔ IsListing text entries := by
  rw [entries?, List.isEmpty_eq_false_iff.mpr h, if_neg (by decide), Option.bind_eq_some_iff]
  simp only [Json.ofText?_eq_some_iff, entriesOfDocument?_eq_some_iff, IsListing]

theorem IsListing.ne_nil {text : List Char} (h : IsListing text entries) : text ≠ [] := by
  obtain ⟨written, hspaced, -⟩ := h
  exact Json.ne_nil_of_isSpaced hspaced

theorem entries?_of_isListing {text : List Char} (h : IsListing text entries) :
    entries? text = some entries :=
  (entries?_eq_some_iff h.ne_nil).mpr h

theorem entries?_eq_none {text : List Char} (h : text ≠ [])
    (hnone : ¬∃ entries, IsListing text entries) : entries? text = none := by
  rw [Option.eq_none_iff_forall_ne_some]
  exact fun entries hentries => hnone ⟨entries, (entries?_eq_some_iff h).mp hentries⟩

/-! ## What a listing holds -/

theorem isDenoted_of_isListing {text : List Char} (h : IsListing text entries) {entry : Entry}
    (hmem : entry ∈ entries) : Json.IsDenoted (.object entry) := by
  have hentry {value : Json.Written} {entries : List Entry} (held : DenotesEntries value entries)
      (hmem : entry ∈ entries) : Json.IsDenoted (.object entry) :=
    Json.IsDenoted.item ⟨_, value, held⟩ (List.mem_map_of_mem hmem)
  obtain ⟨written, -, hdocument⟩ := h
  cases hdocument with
  | object others named held => exact hentry held hmem
  | noMember others => cases hmem
  | list held => exact hentry held hmem
  | noItem => cases hmem

theorem member?_eq_some_iff {entry : Entry} (h : Json.IsDenoted (.object entry)) {kind : String}
    {body : Json} : entry.member? kind = some body ↔ (kind, body) ∈ entry :=
  Json.lookup_eq_some_iff_mem h.ordered

theorem asNatural?_eq_some_iff {body : Json} {n : Nat} :
    body.asNatural? Json.largestWord = some n ↔ body = Json.natural n ∧ n < 2 ^ 64 := by
  have hlimit {m : Nat} : m ≤ Json.largestWord ↔ m < 2 ^ 64 := Nat.le_sub_one_iff_lt (by decide)
  constructor
  · intro h
    unfold Json.asNatural? at h
    split at h
    · split_ifs at h with hsmall
      cases h
      exact ⟨rfl, hlimit.mp hsmall⟩
    · cases h
  · rintro ⟨rfl, hsmall⟩
    exact if_pos (hlimit.mpr hsmall)

/-- The entries of a listing have a text of their own, unless there are none. -/
theorem exists_isItems_of_isListing {text : List Char} (h : IsListing text entries) :
    entries = [] ∨ ∃ text items, Json.IsItems text items ∧
      Json.DenotesItems (Json.deepestNesting - 2) items (entries.map Json.object) := by
  have hentries {text : List Char} {value : Json.Written} {entries : List Entry}
      (hspaced : Json.IsSpaced text value) (held : DenotesEntries value entries) :
      entries = [] ∨ ∃ text items, Json.IsItems text items ∧
        Json.DenotesItems (Json.deepestNesting - 2) items (entries.map Json.object) := by
    obtain ⟨lower, items, hlower, rfl, each⟩ := Json.exists_items_of_denotes held
    cases hlower
    rcases Json.exists_isItems_of_isSpaced hspaced with rfl | ⟨text, hitems⟩
    · cases entries with
      | nil => exact .inl rfl
      | cons => cases each
    · exact .inr ⟨text, items, hitems, each⟩
  obtain ⟨written, hspaced, hdocument⟩ := h
  cases hdocument with
  | object others named held =>
      rcases Json.exists_isMembers_of_isSpaced hspaced with hnone | ⟨text, hmembers⟩
      · simp at hnone
      · obtain ⟨text, hvalue⟩ := Json.exists_isSpaced_of_mem hmembers
          (List.mem_append_right _ List.mem_cons_self)
        exact hentries hvalue held
  | noMember others => exact .inl rfl
  | list held =>
      rcases Json.exists_isItems_of_isSpaced hspaced with hnone | ⟨text, hitems⟩
      · cases hnone
      · cases hitems with
        | last first => exact hentries first held
        | next first others => cases others
  | noItem => exact .inl rfl

/-- The entries of two listings, one after the other, are those of a listing. -/
theorem exists_isListing_append {text more : List Char} {others : List Entry}
    (h : IsListing text entries) (hmore : IsListing more others) :
    ∃ whole, IsListing whole (entries ++ others) := by
  rcases exists_isItems_of_isListing h with rfl | ⟨front, items, hfront, heach⟩
  · exact ⟨more, hmore⟩
  rcases exists_isItems_of_isListing hmore with rfl | ⟨back, otherItems, hback, hothers⟩
  · rw [List.append_nil]
    exact ⟨text, h⟩
  have hitems := Json.isItems_append hfront hback
  have hheld : DenotesEntries (.list (items ++ otherItems)) (entries ++ others) := by
    rw [DenotesEntries, List.map_append]
    exact .list (Json.denotesItems_append heach hothers)
  have hinner := Json.IsSpaced.mk Json.isSpace_nil (.list hitems) Json.isSpace_nil
  exact ⟨_, _, .mk Json.isSpace_nil (.list (.last hinner)) Json.isSpace_nil, .list hheld⟩

end Listing

end FlowFence
