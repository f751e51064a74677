import FlowFence.ControlSocket.Client
import FlowFence.Proofs.ControlSocket.Lines
import FlowFence.Proofs.Text.Encoding

/-!
# The framing of replies

What a reply amounts to is settled by its first line that reports an error, is the last of the reply or
is no text. The client has the answer as soon as that line is complete, however the bytes are cut into
pieces and whatever follows.
-/

namespace FlowFence

namespace ControlSocket

/-! ## Lines that decide -/

/-- Four ASCII digits, the first of them 8 or 9. -/
structure IsErrorCode (code : List UInt8) : Prop where
  length : code.length = 4
  digits : ∀ b ∈ code, 0x30 ≤ b ∧ b ≤ 0x39
  first : code.head? = some 0x38 ∨ code.head? = some 0x39

def ReportsError (line : List UInt8) : Prop :=
  ∃ code rest, IsErrorCode code ∧ line = code ++ 0x20 :: rest

def EndsReply (line : List UInt8) : Prop :=
  [0x30, 0x30, 0x30, 0x30, 0x20] <+: line

def IsText (line : List UInt8) : Prop :=
  ∃ text, line = Utf8.encode text

/-- Whether no line behind a line matters. -/
def Decides (line : List UInt8) : Prop :=
  ReportsError line ∨ EndsReply line ∨ ¬ IsText line

section Codes

variable {text : List Char} {code rest : List UInt8} {b : UInt8} {c : Char}

theorem toNat_le_of_digit (h : 0x30 ≤ b ∧ b ≤ 0x39) : 48 ≤ b.toNat ∧ b.toNat ≤ 57 := by
  simpa [UInt8.le_iff_toNat_le] using h

theorem isDigit_asciiChar (h : 0x30 ≤ b ∧ b ≤ 0x39) : Text.isDigit (Utf8.asciiChar b) = true := by
  have hall : ∀ n < 58, 48 ≤ n → Text.isDigit (Char.ofNat n) = true := by decide
  obtain ⟨hlow, hhigh⟩ := toNat_le_of_digit h
  exact hall b.toNat (by omega) hlow

theorem exists_asciiChar_of_isDigit (h : Text.isDigit c = true) :
    ∃ b, (0x30 ≤ b ∧ b ≤ 0x39) ∧ c = Utf8.asciiChar b := by
  simp only [Text.isDigit, Bool.and_eq_true, decide_eq_true_eq, Char.le_def,
    UInt32.le_iff_toNat_le] at h
  have hlow : 48 ≤ c.toNat := h.1
  have hhigh : c.toNat ≤ 57 := h.2
  have hbyte : (UInt8.ofNat c.toNat).toNat = c.toNat := Utf8.toNat_byte_ofNat (by omega)
  refine ⟨UInt8.ofNat c.toNat, ?_, ?_⟩
  · simp only [UInt8.le_iff_toNat_le, hbyte]
    exact ⟨hlow, hhigh⟩
  · rw [Utf8.asciiChar, hbyte, Char.ofNat_toNat]

/-- The code of an error and the space behind it are five characters of one byte each. -/
theorem encode_eq_code_iff (h : IsErrorCode code) :
    Utf8.encode text = code ++ 0x20 :: rest ↔
      ∃ tail, text = code.map Utf8.asciiChar ++ ' ' :: tail ∧ Utf8.encode tail = rest := by
  have hascii : ∀ b ∈ code ++ [0x20], b.toNat ≤ 0x7F := by
    intro b hb
    rcases List.mem_append.mp hb with hcode | hspace
    · exact Nat.le_trans (toNat_le_of_digit (h.digits b hcode)).2 (by decide)
    · obtain rfl := List.mem_singleton.mp hspace
      decide
  have hsplit : Utf8.encode text = code ++ [0x20] ++ rest ↔ _ :=
    Utf8.encode_eq_append_iff hascii
  simpa [show Utf8.asciiChar 0x20 = ' ' by decide] using hsplit

/-- The report is behind the fifth character, and behind the fifth byte. -/
theorem drop_encode_of_reportsError (h : ReportsError (Utf8.encode text)) :
    (Utf8.encode text).drop 5 = Utf8.encode (text.drop 5) := by
  obtain ⟨code, rest, hcode, htext⟩ := h
  obtain ⟨tail, rfl, rfl⟩ := (encode_eq_code_iff hcode).mp htext
  have hbytes : (code ++ [0x20]).length = 5 := by simp [hcode.length]
  have hchars : (code.map Utf8.asciiChar ++ [' ']).length = 5 := by simp [hcode.length]
  rw [htext, List.append_cons, List.drop_left' hbytes, List.append_cons, List.drop_left' hchars]

theorem reportsError_of_report? {reason : List Char} (h : report? text = some reason) :
    ReportsError (Utf8.encode text) ∧ reason = Text.trim (text.drop 5) := by
  unfold report? at h
  split at h
  · rename_i first second third fourth rest
    split at h
    · rename_i hcode
      cases h
      simp only [List.all_cons, List.all_nil, Bool.and_true, Bool.and_eq_true] at hcode
      obtain ⟨hfirst, hsecond, hthird, hfourth⟩ := hcode
      obtain ⟨b, hb, rfl⟩ := exists_asciiChar_of_isDigit hsecond
      obtain ⟨c, hc, rfl⟩ := exists_asciiChar_of_isDigit hthird
      obtain ⟨d, hd, rfl⟩ := exists_asciiChar_of_isDigit hfourth
      obtain ⟨a, ha, rfl⟩ : ∃ a, (a = 0x38 ∨ a = 0x39) ∧ first = Utf8.asciiChar a := by
        rcases hfirst with rfl | rfl
        · exact ⟨0x38, .inl rfl, by decide⟩
        · exact ⟨0x39, .inr rfl, by decide⟩
      have hcode : IsErrorCode [a, b, c, d] := by
        refine ⟨rfl, ?_, by simpa using ha⟩
        have hrange : 0x30 ≤ a ∧ a ≤ 0x39 := by rcases ha with rfl | rfl <;> decide
        simp [hrange, hb, hc, hd]
      refine ⟨⟨[a, b, c, d], Utf8.encode rest, hcode, ?_⟩, rfl⟩
      exact (encode_eq_code_iff hcode).mpr ⟨rest, rfl, rfl⟩
    · cases h
  · cases h

theorem report?_of_reportsError (h : ReportsError (Utf8.encode text)) :
    report? text = some (Text.trim (text.drop 5)) := by
  obtain ⟨code, rest, hcode, htext⟩ := h
  obtain ⟨tail, rfl, -⟩ := (encode_eq_code_iff hcode).mp htext
  obtain ⟨hlength, hdigits, hfirst⟩ := hcode
  obtain ⟨a, b, c, d, rfl⟩ : ∃ a b c d, code = [a, b, c, d] := by
    rcases code with _ | ⟨a, _ | ⟨b, _ | ⟨c, _ | ⟨d, _ | ⟨e, code⟩⟩⟩⟩⟩ <;> simp_all
  have hlead : Utf8.asciiChar a = '8' ∨ Utf8.asciiChar a = '9' := by
    simp only [List.head?_cons, Option.some.injEq] at hfirst
    rcases hfirst with rfl | rfl <;> decide
  have hdigit (x : UInt8) (hx : x ∈ [a, b, c, d]) : Text.isDigit (Utf8.asciiChar x) = true :=
    isDigit_asciiChar (hdigits x hx)
  simp [report?, hlead, hdigit]

theorem isLast_iff : isLast text = true ↔ EndsReply (Utf8.encode text) := by
  have hascii : ∀ b ∈ [0x30, 0x30, 0x30, 0x30, 0x20], UInt8.toNat b ≤ 0x7F := by simp
  have hmark : [0x30, 0x30, 0x30, 0x30, 0x20].map Utf8.asciiChar = endMark := by decide
  constructor
  · intro h
    obtain ⟨tail, htail⟩ := Option.isSome_iff_exists.mp h
    have htext := Text.eq_append_of_after? htail
    refine ⟨Utf8.encode tail, Eq.symm ?_⟩
    exact (Utf8.encode_eq_append_iff hascii).mpr ⟨tail, hmark ▸ htext, rfl⟩
  · rintro ⟨rest, htext⟩
    obtain ⟨tail, rfl, -⟩ := (Utf8.encode_eq_append_iff hascii).mp htext.symm
    rw [isLast, hmark, Text.after?_append]
    rfl

end Codes

/-! ## Answers -/

def joined (lines : List (List Char)) : List Char :=
  lines.flatMap (· ++ ['\n'])

/-- Lines and what a reply of them amounts to. -/
inductive Answers : List (List UInt8) → Except FetchError (List Char) → Prop
  /-- The text behind the first five bytes is the reason that is given. -/
  | report (before : List (List Char)) {text reason : List Char} (after : List (List UInt8))
      (first : ∀ line ∈ before, ¬ Decides (Utf8.encode line))
      (reports : ReportsError (Utf8.encode text))
      (behind : (Utf8.encode text).drop 5 = Utf8.encode reason) :
      Answers (before.map Utf8.encode ++ Utf8.encode text :: after)
        (.error (.rejected (String.ofList (Text.trim reason))))
  | ended (before : List (List Char)) {text : List Char} (after : List (List UInt8))
      (first : ∀ line ∈ before, ¬ Decides (Utf8.encode line))
      (ends : EndsReply (Utf8.encode text)) :
      Answers (before.map Utf8.encode ++ Utf8.encode text :: after) (.ok (joined (before ++ [text])))
  | broken (before : List (List Char)) {bytes : List UInt8} {fault : String}
      (after : List (List UInt8)) (first : ∀ line ∈ before, ¬ Decides (Utf8.encode line))
      (noText : ¬ IsText bytes) :
      Answers (before.map Utf8.encode ++ bytes :: after) (.error (.io (.data fault)))
  | undecided (lines : List (List Char)) (none : ∀ line ∈ lines, ¬ Decides (Utf8.encode line)) :
      Answers (lines.map Utf8.encode) (.ok (joined lines))

theorem not_isText_iff {bytes : List UInt8} :
    ¬ IsText bytes ↔ ∃ fault, Utf8.decode bytes = .error fault := by
  cases hdecode : Utf8.decode bytes with
  | error fault =>
      refine iff_of_true ?_ ⟨fault, rfl⟩
      rintro ⟨text, rfl⟩
      rw [Utf8.decode_encode] at hdecode
      cases hdecode
  | ok text =>
      refine iff_of_false (not_not_intro ⟨text, Utf8.decode_eq_ok_iff.mp hdecode⟩) ?_
      rintro ⟨fault, hfault⟩
      cases hfault

theorem decides_encode_iff {text : List Char} :
    Decides (Utf8.encode text) ↔ (report? text).isSome = true ∨ isLast text = true := by
  have htext : IsText (Utf8.encode text) := ⟨text, rfl⟩
  have hreport : ReportsError (Utf8.encode text) ↔ (report? text).isSome = true := by
    constructor
    · intro h
      rw [report?_of_reportsError h]
      rfl
    · intro h
      obtain ⟨reason, hreason⟩ := Option.isSome_iff_exists.mp h
      exact (reportsError_of_report? hreason).1
  simp [Decides, htext, hreport, isLast_iff]

/-- One more line in front that decides nothing. -/
theorem Answers.cons {lines : List (List UInt8)} {result : Except FetchError (List Char)}
    (h : Answers lines result) {text : List Char} (hnot : ¬ Decides (Utf8.encode text)) :
    Answers (Utf8.encode text :: lines) (result.map fun more => text ++ '\n' :: more) := by
  have hfirst {before : List (List Char)} (h : ∀ line ∈ before, ¬ Decides (Utf8.encode line)) :
      ∀ line ∈ text :: before, ¬ Decides (Utf8.encode line) := by
    intro line hline
    rcases List.mem_cons.mp hline with rfl | hmem
    · exact hnot
    · exact h line hmem
  cases h with
  | report before after first reports behind =>
      exact .report (text :: before) after (hfirst first) reports behind
  | ended before after first ends =>
      have hended := Answers.ended (text :: before) after (hfirst first) ends
      simpa [joined, Except.map] using hended
  | broken before after first noText => exact .broken (text :: before) after (hfirst first) noText
  | undecided lines none =>
      have hundecided := Answers.undecided (text :: lines) (hfirst none)
      simpa [joined, Except.map] using hundecided

theorem answers_replyOfLines? (lines : List (List UInt8)) : Answers lines (replyOfLines? lines) := by
  induction lines with
  | nil => exact .undecided [] (by simp)
  | cons bytes lines ih =>
      rw [replyOfLines?]
      cases hdecode : Utf8.decode bytes with
      | error fault =>
          exact .broken [] lines (by simp) (not_isText_iff.mpr ⟨fault, hdecode⟩)
      | ok text =>
          obtain rfl := Utf8.decode_eq_ok_iff.mp hdecode
          dsimp only
          cases hreport : report? text with
          | some reason =>
              obtain ⟨hreports, rfl⟩ := reportsError_of_report? hreport
              exact .report [] lines (by simp) hreports (drop_encode_of_reportsError hreports)
          | none =>
              dsimp only
              split
              · rename_i hlast
                simpa [joined] using
                  Answers.ended [] lines (by simp) (isLast_iff.mp hlast)
              · rename_i hlast
                refine ih.cons ?_
                rw [decides_encode_iff, hreport]
                simp [hlast]

/-! ## Clients -/

namespace Client

theorem foldl_receive (client : Client) (pieces : List (List UInt8)) :
    pieces.foldl receive client = client.receive pieces.flatten := by
  induction pieces generalizing client with
  | nil => rfl
  | cons piece pieces ih =>
      rw [List.foldl_cons, ih, List.flatten_cons]
      exact List.foldl_append.symm

@[simp] theorem receive_done (result : Except FetchError (List Char)) (piece : List UInt8) :
    (Client.done result).receive piece = .done result := by
  induction piece with
  | nil => rfl
  | cons byte piece ih => exact ih

/-- A line that is complete settles the answer, or it is added to the text. -/
theorem takeLine_cases (text : List Char) (bytes : List UInt8) :
    (∃ result, takeLine text bytes = .done result ∧ Decides bytes ∧
      ∀ lines, (replyOfLines? (bytes :: lines)).map (text ++ ·) = result) ∨
    ∃ line, takeLine text bytes = .reading (text ++ (line ++ ['\n'])) [] ∧ ¬ Decides bytes ∧
      ∀ lines, (replyOfLines? (bytes :: lines)).map (text ++ ·) =
        (replyOfLines? lines).map (text ++ (line ++ ['\n']) ++ ·) := by
  unfold takeLine
  simp only [replyOfLines?]
  cases hdecode : Utf8.decode bytes with
  | error fault =>
      exact .inl ⟨_, rfl, .inr (.inr (not_isText_iff.mpr ⟨fault, hdecode⟩)), fun _ => rfl⟩
  | ok line =>
      obtain rfl := Utf8.decode_eq_ok_iff.mp hdecode
      rw [decides_encode_iff]
      dsimp only
      cases hreport : report? line with
      | some reason => exact .inl ⟨_, rfl, .inl rfl, fun _ => rfl⟩
      | none =>
          cases hlast : isLast line with
          | true => exact .inl ⟨_, rfl, .inr rfl, fun _ => rfl⟩
          | false =>
              refine .inr ⟨line, rfl, by simp, fun lines => ?_⟩
              cases hmore : replyOfLines? lines <;> simp [Except.map]

/-- A client that goes on has, in the end, its text and the reply that the bytes to come make. -/
theorem close_receive (text : List Char) (begun bytes : List UInt8) :
    ((Client.reading text begun).receive bytes).close =
      (replyOfLines? (linesFrom begun bytes)).map (text ++ ·) := by
  induction bytes generalizing text begun with
  | nil =>
      rw [linesFrom]
      change (if begun.isEmpty then _ else _) = _
      split
      · simp [replyOfLines?, Except.map]
      · rcases takeLine_cases text begun.reverse with
          ⟨result, htake, -, hreply⟩ | ⟨line, htake, -, hreply⟩
        · rw [htake, hreply]
          rfl
        · rw [htake, hreply]
          simp [replyOfLines?, Except.map, result]
  | cons b bytes ih =>
      change (((Client.reading text begun).takeByte b).receive bytes).close = _
      rw [linesFrom, takeByte]
      split
      · rcases takeLine_cases text (dropReturn begun.reverse) with
          ⟨result, htake, -, hreply⟩ | ⟨line, htake, -, hreply⟩
        · rw [htake, hreply, receive_done]
          rfl
        · rw [htake, hreply, ih]
      · exact ih text (b :: begun)

/-- The pieces of a reply make what their bytes make together. -/
theorem collect_eq_reply? (pieces : List (List UInt8)) :
    collect pieces = reply? pieces.flatten := by
  rw [collect, foldl_receive, start, close_receive, reply?, lines]
  cases replyOfLines? (linesFrom [] pieces.flatten) <;> rfl

theorem receive_line {line : List UInt8} (h : 0x0A ∉ line) (text : List Char)
    (begun bytes : List UInt8) :
    (Client.reading text begun).receive (line ++ 0x0A :: bytes) =
      (takeLine text (dropReturn (begun.reverse ++ line))).receive bytes := by
  induction line generalizing begun with
  | nil => simp [receive, takeByte]
  | cons b line ih =>
      obtain ⟨hb, hline⟩ := not_or.mp (mt List.mem_cons.mpr h)
      have hbyte : (Client.reading text begun).takeByte b = .reading text (b :: begun) :=
        if_neg (Ne.symm hb)
      have hrest := ih hline (b :: begun)
      rw [List.reverse_cons, List.append_assoc, List.singleton_append] at hrest
      rw [← hrest, ← hbyte]
      rfl

/-- A client that takes a line has the answer by then, or it goes on. -/
theorem exists_done_of_takeLine {line bytes : List UInt8} {lines : List (List UInt8)}
    (hdecides : ∃ other ∈ line :: lines, Decides other)
    (hmore : (∃ other ∈ lines, Decides other) →
      ∀ text, ∃ result, (Client.reading text []).receive bytes = .done result)
    (text : List Char) : ∃ result, (takeLine text line).receive bytes = .done result := by
  rcases takeLine_cases text line with ⟨result, htake, -, -⟩ | ⟨added, htake, hnot, -⟩
  · exact ⟨result, by rw [htake, receive_done]⟩
  · obtain ⟨other, hmem, hother⟩ := hdecides
    rcases List.mem_cons.mp hmem with rfl | hlater
    · exact (hnot hother).elim
    · rw [htake]
      exact hmore ⟨other, hlater, hother⟩ _

def IsWhole (bytes : List UInt8) : Prop :=
  bytes = [] ∨ bytes.getLast? = some 0x0A

theorem IsWhole.of_append (front : List UInt8) {bytes : List UInt8}
    (h : IsWhole (front ++ bytes)) : IsWhole bytes := by
  rcases List.eq_nil_or_concat bytes with rfl | ⟨init, last, rfl⟩
  · exact .inl rfl
  · rcases h with hnil | hlast
    · simp at hnil
    · exact .inr (by simpa using hlast)

/-- A client has the answer when the line that decides is complete. -/
theorem exists_done_of_fallsInto {bytes : List UInt8} {lines : List (List UInt8)}
    (h : FallsInto bytes lines) (hwhole : IsWhole bytes) (hdecides : ∃ line ∈ lines, Decides line)
    (text : List Char) : ∃ result, (Client.reading text []).receive bytes = .done result := by
  induction h generalizing text with
  | nil => simp at hdecides
  | unended nonempty unbroken =>
      rcases hwhole with hnil | hlast
      · exact (nonempty hnil).elim
      · exact (unbroken (List.mem_of_getLast? hlast)).elim
  | @feed line bytes lines unbroken unreturned more ih =>
      have hmore : IsWhole bytes := IsWhole.of_append (line ++ [0x0A]) (by simpa using hwhole)
      rw [receive_line unbroken, List.reverse_nil, List.nil_append,
        dropReturn_of_getLast? unreturned]
      exact exists_done_of_takeLine hdecides (ih hmore) text
  | @returnFeed line bytes lines unbroken more ih =>
      have hmore : IsWhole bytes :=
        IsWhole.of_append (line ++ [0x0D, 0x0A]) (by simpa using hwhole)
      have hreturn : 0x0A ∉ line ++ [0x0D] := by simp [unbroken]
      rw [List.append_cons, receive_line hreturn, List.reverse_nil, List.nil_append,
        dropReturn_append_return]
      exact exists_done_of_takeLine hdecides (ih hmore) text

/-- No byte behind the line that decides changes the answer. -/
theorem collect_eq_of_prefix {front : List UInt8} {lines : List (List UInt8)}
    (h : FallsInto front lines) (hwhole : IsWhole front) (hdecides : ∃ line ∈ lines, Decides line)
    {pieces : List (List UInt8)} (hfront : front <+: pieces.flatten) :
    collect pieces = collect [front] := by
  obtain ⟨more, hmore⟩ := hfront
  obtain ⟨result, hdone⟩ := exists_done_of_fallsInto h hwhole hdecides []
  have hreceive : start.receive pieces.flatten = .done result := by
    rw [← hmore, receive, List.foldl_append]
    change ((start.receive front).receive more) = _
    rw [start, hdone, receive_done]
  rw [collect, collect, foldl_receive, hreceive, List.foldl_cons, List.foldl_nil, start, hdone]

end Client

/--
A reply in pieces of any lengths, from a daemon that then closes the connection. The bytes fall into
lines in one way. The answer is settled by the first line that begins with the code of an error and a
space, or with four zeros and a space, or that is no UTF-8: it is the report behind the code and the
space, trimmed; or the text of all lines up to that one, each with a line feed behind it; or an input
error. If there is no such line it is the text of all lines. Once such a line has arrived with its line
feed, no byte that follows changes the answer. What stands behind the fifth byte of an error line is a
text, namely what stands behind the fifth character.
-/
theorem first_deciding_line_settles_reply (pieces : List (List UInt8)) :
    (∃ lines, FallsInto pieces.flatten lines ∧
      (∀ other, FallsInto pieces.flatten other → other = lines) ∧
      Answers lines (Client.collect pieces)) ∧
    fetch? (.ok pieces.flatten) = Client.collect pieces ∧
    (∀ front lines, FallsInto front lines → front.getLast? = some 0x0A →
      (∃ line ∈ lines, Decides line) → front <+: pieces.flatten →
        Client.collect pieces = Client.collect [front]) ∧
    ∀ text, ReportsError (Utf8.encode text) →
      (Utf8.encode text).drop 5 = Utf8.encode (text.drop 5) := by
  refine ⟨⟨lines pieces.flatten, fallsInto_iff.mpr rfl, ?_, ?_⟩, ?_, ?_, ?_⟩
  · intro other hother
    exact (fallsInto_iff.mp hother).symm
  · rw [Client.collect_eq_reply?]
    exact answers_replyOfLines? _
  · exact (Client.collect_eq_reply? pieces).symm
  · intro front lines hfront hlast hdecides hprefix
    exact Client.collect_eq_of_prefix hfront (.inr hlast) hdecides hprefix
  · intro text
    exact drop_encode_of_reportsError

/-- A line of a route, an error and what is no text, cut inside a line end and inside a character. -/
def reportPieces : List (List UInt8) :=
  [Utf8.encode "1007-flow4\r".toList, 0x0A :: Utf8.encode "8001 caf".toList ++ [0xC3], [0xA9, 0x0D],
    [0x0A, 0xFF, 0x0A]]

def reportFront : List UInt8 :=
  Utf8.encode "1007-flow4\r\n8001 café\r\n".toList

theorem report_in_pieces_settles_reply :
    lines reportFront = [Utf8.encode "1007-flow4".toList, Utf8.encode "8001 café".toList] ∧
      reportFront <+: reportPieces.flatten ∧
      Client.collect reportPieces = Client.collect [reportFront] ∧
      Client.collect reportPieces = .error (.rejected "café") := by
  obtain ⟨-, -, hsettles, -⟩ := first_deciding_line_settles_reply reportPieces
  have hlines :
      lines reportFront = [Utf8.encode "1007-flow4".toList, Utf8.encode "8001 café".toList] := by
    decide
  have hprefix : reportFront <+: reportPieces.flatten := ⟨[0xFF, 0x0A], by decide⟩
  have hreports : ReportsError (Utf8.encode "8001 café".toList) :=
    ⟨[0x38, 0x30, 0x30, 0x31], Utf8.encode "café".toList, ⟨rfl, by simp, .inl rfl⟩, by decide⟩
  have hcollect : Client.collect [reportFront] = .error (.rejected "café") := rfl
  have hsame := hsettles reportFront _ (fallsInto_iff.mpr hlines) (by decide)
    ⟨_, by simp, .inl hreports⟩ hprefix
  exact ⟨hlines, hprefix, hsame, hsame.trans hcollect⟩

end ControlSocket

end FlowFence
