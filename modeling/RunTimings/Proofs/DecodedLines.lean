import RunTimings.Proofs.LineNumbers
import RunTimings.Proofs.Utf8Texts

/-! # Decoding and cutting — the lines of a log as text

    A log is cut at the newline bytes, and then each line is decoded by itself.
    It could as well be decoded as a whole, and then be cut at the line feeds.
    The two agree on all bytes, since a newline is a whole character wherever it
    stands: what is broken before it ends there.

    * `decode_line` — what is decoded before a newline and behind it does not
      depend on the other.
    * `map_decode_pieces`, `map_decode_linesOf` — the pieces and the lines, each
      decoded, are those of the decoded whole.
    * `cutInto_iff` — what the lines of a sequence are, said without cutting it.
    * **`lines_of_decoded_text`** — so what is found in a log is what is found in
      its text, and text is read character for character. -/

namespace RunTimings

open RunTimings.Text

/-! ## A newline among bytes -/

/-- The bytes of a line feed. -/
theorem utf8EncodeChar_lineFeed : String.utf8EncodeChar '\n' = [newline] := by decide

/-- **A NEWLINE** is read as a line feed whatever stands around it, and what
    stands before it and behind it is read as if the other were not there. -/
theorem decode_line (before after : List UInt8) :
    Utf8.decode (before ++ newline :: after)
      = Utf8.decode before ++ '\n' :: Utf8.decode after := by
  have hparts := Utf8.fragments_append_char before '\n' after
  rw [utf8EncodeChar_lineFeed, List.singleton_append] at hparts
  simp only [Utf8.decode]
  rw [hparts, List.map_append, List.map_cons]
  rfl

/-- A part that is shown as a line feed has a newline among its bytes. -/
theorem newline_mem_bytes {part : Utf8.Fragment} (h : part.shown = '\n') :
    newline ∈ part.bytes := by
  cases part with
  | char c =>
      obtain rfl : c = '\n' := h
      decide
  | broken bytes => exact absurd h (by decide : Char.ofNat 0xfffd ≠ '\n')

/-- Bytes without a newline are shown without a line feed. -/
theorem lineFeed_not_mem_decode {content : List UInt8} (h : newline ∉ content) :
    '\n' ∉ Utf8.decode content := by
  intro hmem
  obtain ⟨part, hpart, hshown⟩ := List.mem_map.mp hmem
  refine h ?_
  rw [← Utf8.flatMap_bytes_fragments content]
  exact List.mem_flatMap.mpr ⟨part, hpart, newline_mem_bytes hshown⟩

/-- Only where there are no bytes there is no text. -/
theorem decode_eq_nil_iff {bytes : List UInt8} : Utf8.decode bytes = [] ↔ bytes = [] := by
  constructor
  · intro h
    rw [← Utf8.flatMap_bytes_fragments bytes, List.map_eq_nil_iff.mp h]
    rfl
  · rintro rfl
    rfl

/-- There are as many line feeds as newlines. -/
theorem count_lineFeed_decode (bytes : List UInt8) :
    (Utf8.decode bytes).count '\n' = bytes.count newline := by
  induction bytes using lines_induction with
  | last content hwhole =>
      rw [List.count_eq_zero.mpr hwhole, List.count_eq_zero.mpr (lineFeed_not_mem_decode hwhole)]
  | line content rest hwhole ih =>
      rw [decode_line, List.count_append, List.count_append, List.count_cons_self,
        List.count_cons_self, ih, List.count_eq_zero.mpr hwhole,
        List.count_eq_zero.mpr (lineFeed_not_mem_decode hwhole)]

/-! ## Cut into lines -/

section

variable {α : Type} [DecidableEq α] {separator : α} {items : List α} {lines : List (List α)}

/-- **CUT INTO LINES**: no line holds a separator, and with one behind each of them the
    lines are the sequence again; only behind its end the last one may be missing. -/
structure CutInto (separator : α) (items : List α) (lines : List (List α)) : Prop where
  whole : ∀ line ∈ lines, separator ∉ line
  joined : lines.flatMap (· ++ [separator])
    = if items = [] ∨ items.getLast? = some separator then items else items ++ [separator]

/-- Lines with a separator behind each of them are cut into the same lines. -/
theorem pieces_flatMap (h : ∀ line ∈ lines, separator ∉ line) :
    pieces separator (lines.flatMap (· ++ [separator])) = lines ++ [[]] := by
  induction lines with
  | nil => rfl
  | cons line rest ih =>
      rw [List.forall_mem_cons] at h
      rw [List.flatMap_cons, List.append_assoc, List.singleton_append,
        pieces_append_separator h.1, ih h.2]
      rfl

/-- A sequence is cut into its pieces, without the last one if that is empty, and into
    nothing else. -/
theorem cutInto_iff :
    CutInto separator items lines
      ↔ lines = if (pieces separator items).getLast? = some [] then
          (pieces separator items).dropLast else pieces separator items := by
  generalize hkept : (if (pieces separator items).getLast? = some [] then
    (pieces separator items).dropLast else pieces separator items) = kept
  -- with a separator at its very end the sequence has one piece more than lines
  have hcut : pieces separator (if items = [] ∨ items.getLast? = some separator then items
      else items ++ [separator]) = kept ++ [[]] := by
    subst hkept
    by_cases hlast : (pieces separator items).getLast? = some []
    · rw [if_pos (getLast?_pieces_eq_nil_iff.mp hlast), if_pos hlast]
      exact (List.dropLast_append_getLast? [] hlast).symm
    · rw [if_neg (mt getLast?_pieces_eq_nil_iff.mpr hlast), if_neg hlast, pieces_append_cons,
        pieces_nil]
  constructor
  · rintro ⟨hwhole, hjoined⟩
    have hsame := pieces_flatMap hwhole
    rw [hjoined, hcut] at hsame
    exact (List.append_cancel_right hsame).symm
  · rintro rfl
    have hwhole : ∀ line ∈ lines, separator ∉ line := by
      intro line hmem
      have hpiece := List.mem_append_left [[]] hmem
      rw [← hcut] at hpiece
      exact not_mem_of_mem_pieces hpiece
    exact ⟨hwhole, pieces_inj.mp ((pieces_flatMap hwhole).trans hcut.symm)⟩

end

/-! ## Lines of text -/

/-- The lines of a text; after the last line feed there is a line only if there
    are characters. -/
def textLines (text : List Char) : List (List Char) :=
  if (pieces '\n' text).getLast? = some [] then (pieces '\n' text).dropLast else pieces '\n' text

/-- **PIECES**: cut at the newlines and then decoded, or decoded and then cut at
    the line feeds. -/
theorem map_decode_pieces (bytes : List UInt8) :
    (pieces newline bytes).map Utf8.decode = pieces '\n' (Utf8.decode bytes) := by
  induction bytes using lines_induction with
  | last content hwhole =>
      rw [pieces_of_not_mem hwhole, pieces_of_not_mem (lineFeed_not_mem_decode hwhole)]
      rfl
  | line content rest hwhole ih =>
      rw [decode_line, pieces_append_separator hwhole,
        pieces_append_separator (lineFeed_not_mem_decode hwhole), List.map_cons, ih]

/-- **LINES**: the decoded lines are the lines of the decoded text. -/
theorem map_decode_linesOf (bytes : List UInt8) :
    (linesOf bytes).map Utf8.decode = textLines (Utf8.decode bytes) := by
  have hlast : (pieces '\n' (Utf8.decode bytes)).getLast? = some []
      ↔ (pieces newline bytes).getLast? = some [] := by
    rw [← map_decode_pieces, List.getLast?_map, Option.map_eq_some_iff]
    -- only an empty piece is decoded as an empty text
    constructor
    · rintro ⟨piece, hpiece, hnil⟩
      rw [hpiece, decode_eq_nil_iff.mp hnil]
    · intro h
      exact ⟨[], h, rfl⟩
  simp only [linesOf, textLines]
  by_cases hempty : (pieces newline bytes).getLast? = some []
  · rw [if_pos hempty, if_pos (hlast.mpr hempty), ← map_decode_pieces, List.map_dropLast]
  · rw [if_neg hempty, if_neg fun h => hempty (hlast.mp h), map_decode_pieces]

/-- What a line of text reports, with its number. -/
def findInText : List Char × Nat → Option Finding
  | (text, line) =>
    match classify (trimEnd text) with
    | .error error => some ⟨line, .error (.unusable error)⟩
    | .ok none => none
    | .ok (some marker) => some ⟨line, .ok marker⟩

/-- What is found in a log that is read to its end is found in its text. -/
theorem findings_of_decoded (bytes : List UInt8) :
    LogContent.findings ⟨bytes, none⟩
      = ((textLines (Utf8.decode bytes)).zipIdx 1).filterMap findInText := by
  have hline : (fun item : List UInt8 × Nat => findOn (.ok item.1, item.2))
      = findInText ∘ Prod.map Utf8.decode id := by
    funext ⟨content, line⟩
    rfl
  have hok : (findOn ∘ Prod.map Except.ok id : List UInt8 × Nat → Option Finding)
      = fun item => findOn (.ok item.1, item.2) := rfl
  rw [findings_eq, lines_whole, foundOn, List.zipIdx_map, List.filterMap_map, hok, hline,
    ← map_decode_linesOf, List.zipIdx_map, List.filterMap_map]

/-- **AS TEXT**: the lines of a log, each decoded by itself, are the lines of the
    log decoded as a whole, and the log reports what these lines report.  A valid
    text is read character for character.  And no newline is lost: whatever
    stands on the two sides of one, broken or not, each side is decoded, and cut
    into its lines, by itself.  Lines hold no newline, and make up all that was
    cut. -/
theorem lines_of_decoded_text :
    (∀ bytes : List UInt8,
        (linesOf bytes).map Utf8.decode = textLines (Utf8.decode bytes)
          ∧ LogContent.findings ⟨bytes, none⟩
            = ((textLines (Utf8.decode bytes)).zipIdx 1).filterMap findInText
          ∧ (Utf8.decode bytes).count '\n' = bytes.count newline)
      ∧ (∀ text : List Char,
        Utf8.decode (Utf8.encode text) = text
          ∧ (linesOf (Utf8.encode text)).map Utf8.decode = textLines text)
      ∧ (∀ before after : List UInt8,
        Utf8.decode (before ++ newline :: after)
            = Utf8.decode before ++ '\n' :: Utf8.decode after
          ∧ (linesOf (before ++ newline :: after)).map Utf8.decode
            = pieces '\n' (Utf8.decode before) ++ textLines (Utf8.decode after))
      ∧ (∀ bytes lines, CutInto newline bytes lines ↔ lines = linesOf bytes)
      ∧ ∀ text lines, CutInto '\n' text lines ↔ lines = textLines text := by
  refine ⟨fun bytes => ?_, fun text => ?_, fun before after => ⟨decode_line before after, ?_⟩,
    fun _ _ => cutInto_iff, fun _ _ => cutInto_iff⟩
  · exact ⟨map_decode_linesOf bytes, findings_of_decoded bytes, count_lineFeed_decode bytes⟩
  · refine ⟨Utf8.decode_encode text, ?_⟩
    rw [map_decode_linesOf, Utf8.decode_encode]
  · have hends : EndsLine (before ++ [newline]) := .inr List.getLast?_concat
    have hfront : pieces newline before = linesOf (before ++ [newline]) := by
      have hcut := pieces_append hends []
      rw [List.append_nil, pieces_append_cons] at hcut
      exact (List.append_left_inj _).mp hcut
    rw [List.append_cons, linesOf_append hends, ← hfront, List.map_append, map_decode_pieces,
      map_decode_linesOf]

-- the first two bytes of a character do not swallow the newline behind them
example : (linesOf [0xe2, 0x82, 0x0a, 0xac, 0x0a]).map Utf8.decode
    = [[Utf8.replacement], [Utf8.replacement]] := by
  decide +kernel

end RunTimings
