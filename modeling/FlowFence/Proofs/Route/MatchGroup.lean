import FlowFence.Proofs.Route.Announced
import FlowFence.Proofs.Route.Cuts
import FlowFence.Route.Dump

/-!
# Where the match group is

The match group begins behind a brace and a space and ends before a space and a brace. Between such
delimiters it is read whole, whatever blanks there are besides. A brace without its space does not
open a group, so criteria that are written right behind it are not read.
-/

namespace FlowFence

namespace Route

open Text (splitWhere upTo)

variable {group inner behind : List Char}

def Names (group : List Char) (key : Key) : Prop :=
  ∃ part ∈ splitWhere (· == ';') group, ∃ value, keyAndValue? part = some (key.spelling, value)

def EndsBlank (group : List Char) : Prop :=
  ∃ blanks, (∀ c ∈ blanks, Text.isBlank c = true) ∧
    (group = blanks ∨ ∃ front, group = front ++ ';' :: blanks)

/--
Whether the text between two braces is read to its end: a space opens it, and either another space
closes it or it ends with a blank part and no further part follows up to the next space and brace.
-/
def IsSpaced (inner behind : List Char) : Prop :=
  ∃ group, inner = ' ' :: group ∧
    ((∃ front, group = front ++ [' ']) ∨
      EndsBlank group ∧ ';' ∉ upTo [' ', '}'] behind)

/-! ## The text of the group -/

theorem between_open_brace {lead : List Char} (hlead : '{' ∉ lead) (rest : List Char) :
    Text.between ['{', ' '] [' ', '}'] (lead ++ '{' :: ' ' :: rest) = upTo [' ', '}'] rest := by
  rw [Text.between_append_of_not_mem hlead]
  simp [Text.between, Text.cut?, Text.after?]

theorem upTo_closing_brace (h : '}' ∉ group) (behind : List Char) :
    upTo [' ', '}'] (group ++ ' ' :: '}' :: behind) = group := by
  have hcut := @Text.cut?_of_last_not_mem [' '] group '}' (by simpa using h) behind
  simp only [List.append_assoc, List.singleton_append] at hcut
  rw [upTo, show [' ', '}'] = [' '] ++ ['}'] from rfl, List.singleton_append, hcut]

theorem upTo_unclosed_brace (h : '}' ∉ group) (hopen : ∀ lead, group ≠ lead ++ [' '])
    (behind : List Char) :
    upTo [' ', '}'] (group ++ '}' :: behind) = group ++ '}' :: upTo [' ', '}'] behind := by
  rw [upTo, Text.cut?_pair_append (by decide) h hopen, upTo]
  cases Text.cut? [' ', '}'] behind <;> rfl

/-! ## What is read of it -/

theorem splitWhere_semicolon {text : List Char} (h : ';' ∉ text) :
    splitWhere (· == ';') text = [text] :=
  Text.splitWhere_eq_singleton fun c hc => by
    simp only [beq_eq_false_iff_ne]
    rintro rfl
    exact h hc

theorem addPart_blanks {blanks : List Char} (h : ∀ c ∈ blanks, Text.isBlank c = true)
    (criteria : Criteria) : addPart criteria blanks = .ok criteria :=
  addPart_of_none (keyAndValue?_of_length (Text.words_blanks h) (by simp))

theorem addPart_blanks_brace {blanks : List Char} (h : ∀ c ∈ blanks, Text.isBlank c = true)
    (tail : List Char) (criteria : Criteria) :
    addPart criteria (blanks ++ '}' :: tail) = .ok criteria := by
  obtain ⟨word, more, hwords⟩ :=
    Text.exists_words_eq_cons (show Text.isBlank '}' = false by decide) tail
  rw [← Text.words_blanks_append h] at hwords
  exact addPart_of_brace hwords

/-- Behind a blank last part, a closing brace and what follows it up to a semicolon say nothing. -/
theorem criteria?_append_brace (h : EndsBlank group) {tail : List Char} (htail : ';' ∉ tail) :
    criteria? (group ++ '}' :: tail) = criteria? group := by
  obtain ⟨blanks, hblanks, hgroup⟩ := h
  have hnone : ';' ∉ blanks := fun hmem => absurd (hblanks _ hmem) (by decide)
  have hlong : ';' ∉ blanks ++ '}' :: tail := by
    simp [hnone, htail]
  rcases hgroup with rfl | ⟨front, rfl⟩
  · rw [criteria?, criteria?, splitWhere_semicolon hnone, splitWhere_semicolon hlong]
    simp [addParts, addPart_blanks hblanks, addPart_blanks_brace hblanks]
  · rw [List.append_assoc, List.cons_append, criteria?_append_cons, criteria?_append_cons,
      splitWhere_semicolon hnone, splitWhere_semicolon hlong,
      addParts_append_silent (addPart_blanks hblanks),
      addParts_append_silent (addPart_blanks_brace hblanks tail)]

theorem criteria?_of_isSpaced (h : IsSpaced inner behind) (hinner : '}' ∉ inner)
    {lead : List Char} (hlead : '{' ∉ lead) :
    criteria? (Text.between ['{', ' '] [' ', '}'] (lead ++ '{' :: inner ++ '}' :: behind)) =
      criteria? inner := by
  obtain ⟨group, rfl, hgroup⟩ := h
  have hmem : '}' ∉ group := fun h => hinner (List.mem_cons_of_mem _ h)
  have hopen (rest : List Char) : lead ++ '{' :: ' ' :: group ++ rest =
      lead ++ '{' :: ' ' :: (group ++ rest) := by simp
  rw [hopen, between_open_brace hlead, criteria?_cons_blank (by decide) (by decide)]
  by_cases hclosed : ∃ front, group = front ++ [' ']
  · obtain ⟨front, rfl⟩ := hclosed
    have hfront : '}' ∉ front := fun h => hmem (List.mem_append_left _ h)
    rw [List.append_assoc, List.singleton_append, upTo_closing_brace hfront,
      criteria?_concat_blank (by decide) (by decide)]
  · obtain ⟨hblank, hnone⟩ := hgroup.resolve_left hclosed
    rw [upTo_unclosed_brace hmem fun front h => hclosed ⟨front, h⟩]
    exact criteria?_append_brace hblank hnone

/-! ## Named blocks -/

theorem exists_denoted_of_names {criteria : Criteria} {key : Key}
    (h : criteria? group = .ok criteria) (hnames : Names group key) :
    ∃ value, denoted? key value = some (entry criteria key) := by
  obtain ⟨part, hpart, value, hpair⟩ := hnames
  obtain ⟨last, hlast⟩ := exists_lastValue? hpart (valueIn?_eq_some_iff.mpr hpair)
  exact ⟨last, denoted?_of_announced? h hlast⟩

theorem source_of_names {criteria : Criteria} (h : criteria? group = .ok criteria)
    (hnames : Names group .source) : criteria.source ≠ none := by
  obtain ⟨value, hvalue⟩ := exists_denoted_of_names h hnames
  obtain ⟨network, hsource, -⟩ := exists_network_of_denoted? hvalue
  simp [hsource]

theorem destination_of_names {criteria : Criteria} (h : criteria? group = .ok criteria)
    (hnames : Names group .destination) : criteria.destination ≠ none := by
  obtain ⟨value, hvalue⟩ := exists_denoted_of_names h hnames
  obtain ⟨network, hdestination, -⟩ := exists_network_of_denoted? hvalue
  simp [hdestination]

/--
A route has the criteria of the text between the first opening and the next closing brace of its
header line, if that text is spaced, and then a block of addresses for each of the two keys that the
text names. It has no criteria at all if no brace and space stand in the line.
-/
theorem spaced_match_group_is_read {block lead inner behind : List Char} {route : Route}
    (hline : headerLine block = lead ++ '{' :: inner ++ '}' :: behind) (hlead : '{' ∉ lead)
    (hinner : '}' ∉ inner) (h : parse block = .ok route) :
    (IsSpaced inner behind →
      criteria? inner = .ok route.criteria ∧
        (Names inner .source → route.criteria.source ≠ none) ∧
        (Names inner .destination → route.criteria.destination ≠ none)) ∧
    (Text.cut? ['{', ' '] (headerLine block) = none → route.criteria = {}) := by
  obtain ⟨-, -, hcriteria, -⟩ := parse_eq_ok_iff.mp h
  constructor
  · intro hspaced
    rw [hline, criteria?_of_isSpaced hspaced hinner hlead] at hcriteria
    exact ⟨hcriteria, source_of_names hcriteria, destination_of_names hcriteria⟩
  · intro hnone
    have hempty : Text.between ['{', ' '] [' ', '}'] (headerLine block) = [] := by
      rw [Text.between, hnone]
    rw [hempty] at hcriteria
    exact (Except.ok.inj hcriteria).symm

/-! ## Blocks with and without the space -/

def tabbedBlock : List Char :=
  ("flow4 \x7b \tdst 203.0.113.0/24; dport 80;\t\x7d [flowspec1 2024-05-01 from 192.0.2.1]\n" ++
    "\tBGP.ext_community: (generic, 0x80060000, 0x0)\n").toList

def tightBlock : List Char :=
  ("flow4 {dst 203.0.113.0/24; } [flowspec1 2024-05-01 from 192.0.2.1]\n" ++
    "\tBGP.ext_community: (generic, 0x80060000, 0x0)\n").toList

def dropRoute (criteria : Criteria) : Route where
  session := ⟨"flowspec1", .v4 0xC0000201, "2024-05-01"⟩
  criteria := criteria
  action := .rateBytes
  argument := 0

theorem parse_tabbedBlock : parse tabbedBlock =
    .ok (dropRoute { destination := some ⟨.v4 0xCB007100, 24⟩, destinationPort := 80 }) := by
  decide +kernel

/-- Without the space, a block that names a destination is a route for all traffic. -/
theorem parse_tightBlock : parse tightBlock = .ok (dropRoute {}) := by
  decide +kernel

theorem headerLine_tightBlock : headerLine tightBlock =
    "flow4 ".toList ++ '{' :: "dst 203.0.113.0/24; ".toList ++
      '}' :: " [flowspec1 2024-05-01 from 192.0.2.1]".toList := by
  decide +kernel

theorem tabbedBlock_is_read :
    let inner := " \tdst 203.0.113.0/24; dport 80;\t".toList
    let behind := " [flowspec1 2024-05-01 from 192.0.2.1]".toList
    headerLine tabbedBlock = "flow4 ".toList ++ '{' :: inner ++ '}' :: behind ∧
      IsSpaced inner behind ∧ Names inner .destination ∧
      criteria? inner =
        .ok { destination := some ⟨.v4 0xCB007100, 24⟩, destinationPort := 80 } ∧
      (dropRoute {}).criteria = {} := by
  intro inner behind
  have hline : headerLine tabbedBlock = "flow4 ".toList ++ '{' :: inner ++ '}' :: behind := by
    decide +kernel
  have hspaced : IsSpaced inner behind := by
    refine ⟨"\tdst 203.0.113.0/24; dport 80;\t".toList, rfl, .inr ⟨?_, by decide +kernel⟩⟩
    exact ⟨['\t'], List.all_eq_true.mp (by decide), .inr ⟨"\tdst 203.0.113.0/24; dport 80".toList, by decide⟩⟩
  have hnames : Names inner .destination :=
    ⟨" \tdst 203.0.113.0/24".toList, by decide +kernel, "203.0.113.0/24".toList,
      by decide +kernel⟩
  obtain ⟨hread, -⟩ := spaced_match_group_is_read hline (by decide) (by decide) parse_tabbedBlock
  obtain ⟨-, hempty⟩ := spaced_match_group_is_read headerLine_tightBlock (by decide) (by decide)
    parse_tightBlock
  exact ⟨hline, hspaced, hnames, (hread hspaced).1, hempty (by decide +kernel)⟩

/-- A brace that no space follows opens no group, even where a block begins with it. -/
theorem tight_match_group_is_not_read :
    ¬ ∀ (block lead inner behind : List Char) (route : Route), Dump.startsBlock block = true →
      headerLine block = lead ++ '{' :: inner ++ '}' :: behind → '{' ∉ lead → '}' ∉ inner →
        parse block = .ok route → criteria? inner = .ok route.criteria := by
  intro hall
  have hread := hall tightBlock _ _ _ _ (by decide +kernel) headerLine_tightBlock (by decide)
    (by decide) parse_tightBlock
  have hother : criteria? "dst 203.0.113.0/24; ".toList =
      .ok { destination := some ⟨.v4 0xCB007100, 24⟩ } := by
    decide +kernel
  rw [hother] at hread
  have hdestination := congrArg Criteria.destination (Except.ok.inj hread)
  cases hdestination

end Route

end FlowFence
