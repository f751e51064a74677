import FlowFence.Log.Event
import FlowFence.Text.Blank
import FlowFence.Text.Cut
import FlowFence.Text.Numeral

/-!
# Log filters

Which events are shown is said by directives with commas between them: a level for all events, or a
target, for which a level may follow an equals sign. A target stands for all targets that begin with
it. Of the directives that concern an event the most specific one decides, and an event that none
concerns is hidden. A directive may also name, in brackets, what surrounds an event or belongs to
it.
-/

namespace FlowFence

namespace Log

/-- The rank up to which events are shown; zero shows none. -/
abbrev Threshold := Nat

def thresholds : List (String × Threshold) :=
  [("off", 0), ("error", 1), ("warn", 2), ("info", 3), ("debug", 4), ("trace", 5)]

def everything : Threshold := 5

def threshold? (text : List Char) : Option Threshold :=
  match Text.word? everything text with
  | some n => some n
  | none => thresholds.lookup (String.ofList (text.map Char.toLower))

structure Directive where
  target : Option String
  /-- The names that an event has to carry. -/
  fields : List String
  /-- Whether only events inside a named span, or with given values, are meant. -/
  inSpan : Bool
  threshold : Threshold
deriving DecidableEq, Inhabited

/-- Whether a character may begin a directive that does not begin with a bracket. -/
def isLead (c : Char) : Bool :=
  c.isAlphanum || c == '-' || c == ':' || c == '_' || (0x80 ≤ c.toNat && !Text.isBlank c)

/-- The threshold behind an equals sign; everything if nothing is there. -/
def levelPart? (text : List Char) : Option Threshold :=
  if text.isEmpty then some everything else threshold? text

def afterBracket? : List Char → Option Threshold
  | [] => some everything
  | '=' :: level => levelPart? level
  | _ => none

/-- The directive of a bracket behind a target: a span, fields in braces, or both. -/
def bracketed? (target : Option String) (text : List Char) : Option Directive := do
  let inside := text.takeWhile fun c => c ≠ ']' ∧ c ≠ '\x7b'
  match text.drop inside.length with
  | ']' :: rest => some ⟨target, [], true, ← afterBracket? rest⟩
  | '\x7b' :: rest =>
      let (fields, rest) ← Text.cut? ['\x7d', ']'] rest
      if fields.isEmpty then none
      else
        let hasValue := fields.contains '='
        some ⟨target, [String.ofList (Text.trim fields)], !inside.isEmpty || hasValue,
          ← afterBracket? rest⟩
  | _ => none

/-- The directive of a text that is one word: a threshold, or else a target. -/
def ofWord (word : List Char) : Directive :=
  match threshold? word with
  | some n => ⟨none, [], false, n⟩
  | none => ⟨some (String.ofList word), [], false, everything⟩

/--
The directive that a text without commas states. Blanks belong to a word that stands alone and are
not allowed in front of a target for which more is said.
-/
def Directive.parse? (text : List Char) : Option Directive :=
  let lead := text.takeWhile fun c => c ≠ '=' ∧ c ≠ '['
  let target := if lead.isEmpty then none else some (String.ofList lead)
  match text.drop lead.length with
  | [] => if ((Text.trimStart lead).head?.map isLead).getD false then some (ofWord lead) else none
  | mark :: rest =>
      if mark = '[' ∧ lead.isEmpty then bracketed? none rest
      else if !(lead.head?.map isLead).getD false then none
      else if mark = '[' then bracketed? target rest
      else (levelPart? rest).map fun n => ⟨target, [], false, n⟩

abbrev Filter := List Directive

/-- The filter that a text states; empty directives are passed over. -/
def Filter.parse? (text : String) : Option Filter :=
  ((Text.splitWhere (· == ',') text.toList).filter fun piece => !piece.isEmpty).mapM
    Directive.parse?

def Filter.upTo (level : Level) : Filter :=
  [⟨none, [], false, level.rank⟩]

def Directive.concerns (directive : Directive) (event : Event) : Bool :=
  !directive.inSpan &&
    directive.fields.all (fun name => event.fieldNames.contains name) &&
    (match directive.target with
     | some target => (Text.after? target.toList event.target.toList).isSome
     | none => true)

/-- How specific a directive is: longer targets first, then more names. -/
def Directive.weight (directive : Directive) : Nat × Nat :=
  ((directive.target.map fun target => target.utf8ByteSize + 1).getD 0, directive.fields.length)

def Directive.outweighs (a b : Directive) : Bool :=
  b.weight.1 < a.weight.1 || (b.weight.1 == a.weight.1 && b.weight.2 ≤ a.weight.2)

/-- The directive that decides on an event: the most specific one, of equal ones the last. -/
def Filter.deciding? (filter : Filter) (event : Event) : Option Directive :=
  filter.foldl (fun best directive =>
    if directive.concerns event then
      match best with
      | some other => if directive.outweighs other then some directive else best
      | none => some directive
    else best) none

def Filter.shows (filter : Filter) (event : Event) : Bool :=
  match filter.deciding? event with
  | some directive => event.level.rank ≤ directive.threshold
  | none => false

def Filter.apply (filter : Filter) (events : List Event) : List Event :=
  events.filter filter.shows

/-- The filter of a daemon: the one that is asked for if it is well formed, else by its settings. -/
def Filter.choose (requested : Option String) (debug : Bool) : Filter :=
  match requested.bind Filter.parse? with
  | some filter => filter
  | none => .upTo (if debug then .debug else .info)

end Log

end FlowFence
