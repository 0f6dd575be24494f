import Mathlib.Data.List.Basic
import RunTimings.Log.Content

/-! # Lines and their numbers — where a log can be cut

    The number of a line is not written in the log; it is counted.  A log can be
    cut behind any newline: what is found in the second part is then found as
    before, only with numbers that begin again from one.

    * `lines_induction` — a byte sequence is a line, a newline and a byte
      sequence, or a last line without a newline.
    * `linesOf_append` — the lines of two parts are the lines of the first and
      then those of the second; the first has as many as it has newlines
      (`length_linesOf`).
    * `findings_append` — the same of the findings, where those of the second
      part count on from the first.
    * `mem_findings_iff_hasLine` — the findings are those on the lines of the log, and
      each bears the number of newlines before its line, plus one; later findings
      bear greater numbers (`findings_increasing`). -/

namespace RunTimings

open RunTimings.Text

/-! ## Lines -/

/-- The bytes end where a line ends: there are none, or the last is a newline. -/
def EndsLine (bytes : List UInt8) : Prop :=
  bytes = [] ∨ bytes.getLast? = some newline

/-- **LINE BY LINE**: what holds of a sequence without newlines, and of a line
    with what follows it if it holds of what follows, holds of every sequence. -/
@[elab_as_elim]
theorem lines_induction {motive : List UInt8 → Prop}
    (last : ∀ content, newline ∉ content → motive content)
    (line : ∀ content rest, newline ∉ content → motive rest →
      motive (content ++ newline :: rest))
    (bytes : List UInt8) : motive bytes := by
  by_cases hmem : newline ∈ bytes
  · obtain ⟨content, rest, heq, hwhole⟩ := List.eq_append_cons_of_mem hmem
    rw [heq]
    exact line content rest hwhole (lines_induction last line rest)
  · exact last bytes hmem
termination_by bytes.length
decreasing_by
  rw [heq, List.length_append, List.length_cons]
  omega

/-- Without a newline there is one line, or none if there are no bytes. -/
theorem linesOf_of_not_mem {content : List UInt8} (h : newline ∉ content) :
    linesOf content = if content = [] then [] else [content] := by
  simp only [linesOf]
  rw [pieces_of_not_mem h]
  by_cases hempty : content = []
  · simp [hempty]
  · simp [hempty]

/-- The first line ends at the first newline. -/
theorem linesOf_line {content : List UInt8} (h : newline ∉ content) (rest : List UInt8) :
    linesOf (content ++ newline :: rest) = content :: linesOf rest := by
  have hne := pieces_ne_nil newline rest
  simp only [linesOf]
  -- whether the last piece is kept is decided among the pieces of the rest
  rw [pieces_append_separator h, List.dropLast_cons_of_ne_nil hne,
    ← List.singleton_append, List.getLast?_append_of_ne_nil _ hne]
  by_cases hlast : (pieces newline rest).getLast? = some []
  · rw [if_pos hlast, if_pos hlast]
  · rw [if_neg hlast, if_neg hlast]
    rfl

/-- Bytes that end a line and have no newline are no bytes. -/
theorem EndsLine.eq_nil {content : List UInt8} (h : EndsLine content)
    (hwhole : newline ∉ content) : content = [] := by
  rcases h with hnil | hlast
  · exact hnil
  · exact absurd (List.mem_of_getLast? hlast) hwhole

/-- A line and what follows it end a line exactly if what follows does. -/
theorem endsLine_line_iff {content rest : List UInt8} :
    EndsLine (content ++ newline :: rest) ↔ EndsLine rest := by
  cases rest with
  | nil => exact ⟨fun _ => .inl rfl, fun _ => .inr List.getLast?_concat⟩
  | cons b rest =>
      have hlast : (content ++ newline :: b :: rest).getLast? = (b :: rest).getLast? := by
        rw [List.getLast?_append_of_ne_nil _ (by simp), List.getLast?_cons_cons]
      simp only [EndsLine, hlast]
      simp

/-- Two parts, cut behind a newline, are cut into pieces one after the other. -/
theorem pieces_append {a : List UInt8} (h : EndsLine a) (b : List UInt8) :
    pieces newline (a ++ b) = linesOf a ++ pieces newline b := by
  induction a using lines_induction with
  | last content hwhole => rw [h.eq_nil hwhole]; rfl
  | line content rest hwhole ih =>
      rw [List.append_assoc, List.cons_append, pieces_append_separator hwhole,
        ih (endsLine_line_iff.mp h), linesOf_line hwhole, List.cons_append]

/-- **TWO PARTS**: the lines of a sequence that is cut behind a newline are those
    of the first part, and then those of the second. -/
theorem linesOf_append {a : List UInt8} (h : EndsLine a) (b : List UInt8) :
    linesOf (a ++ b) = linesOf a ++ linesOf b := by
  induction a using lines_induction with
  | last content hwhole => rw [h.eq_nil hwhole]; rfl
  | line content rest hwhole ih =>
      rw [List.append_assoc, List.cons_append, linesOf_line hwhole, ih (endsLine_line_iff.mp h),
        linesOf_line hwhole, List.cons_append]

/-- Where every line is ended there are as many lines as newlines. -/
theorem length_linesOf {bytes : List UInt8} (h : EndsLine bytes) :
    (linesOf bytes).length = bytes.count newline := by
  induction bytes using lines_induction with
  | last content hwhole => rw [h.eq_nil hwhole]; rfl
  | line content rest hwhole ih =>
      rw [linesOf_line hwhole, List.length_cons, ih (endsLine_line_iff.mp h), List.count_append,
        List.count_cons_self, List.count_eq_zero.mpr hwhole]
      omega

/-- A newline at the very end closes the last line and opens no further one. -/
theorem linesOf_concat_newline {bytes : List UInt8} (h : ¬ EndsLine bytes) :
    linesOf (bytes ++ [newline]) = linesOf bytes := by
  induction bytes using lines_induction with
  | last content hwhole =>
      rw [linesOf_line hwhole, linesOf_of_not_mem hwhole, if_neg fun hnil => h (.inl hnil)]
      rfl
  | line content rest hwhole ih =>
      rw [List.append_assoc, List.cons_append, linesOf_line hwhole,
        ih fun hrest => h (endsLine_line_iff.mpr hrest), linesOf_line hwhole]

/-! ## The place of a line -/

/-- A line of a byte sequence: what stands before it ends a line, it holds no
    newline, and one follows it, unless it is the last and not empty. -/
structure LineAt (bytes before content : List UInt8) : Prop where
  opens : EndsLine before
  whole : newline ∉ content
  ends : (∃ after, bytes = before ++ (content ++ newline :: after))
    ∨ bytes = before ++ content ∧ content ≠ []

/-- A line of what follows a line is a line of both together. -/
theorem LineAt.later {content rest before found : List UInt8} (h : LineAt rest before found) :
    LineAt (content ++ newline :: rest) (content ++ newline :: before) found := by
  refine ⟨endsLine_line_iff.mpr h.opens, h.whole, ?_⟩
  rcases h.ends with ⟨after, rfl⟩ | ⟨rfl, hne⟩
  · exact .inl ⟨after, by simp⟩
  · exact .inr ⟨by simp, hne⟩

/-- **PLACES**: a line stands at the place that the newlines before it count, and
    nothing else stands there. -/
theorem getElem?_linesOf {bytes content : List UInt8} {place : Nat} :
    (linesOf bytes)[place]? = some content
      ↔ ∃ before, LineAt bytes before content ∧ before.count newline = place := by
  constructor
  · intro h
    induction bytes using lines_induction generalizing place with
    | last bytes hwhole =>
        rw [linesOf_of_not_mem hwhole] at h
        by_cases hempty : bytes = []
        · rw [if_pos hempty] at h
          cases h
        · rw [if_neg hempty] at h
          rw [List.getElem?_singleton, Option.ite_none_right_eq_some] at h
          obtain ⟨rfl, hsame⟩ := h
          obtain rfl := Option.some.inj hsame
          exact ⟨[], ⟨.inl rfl, hwhole, .inr ⟨rfl, hempty⟩⟩, rfl⟩
    | line first rest hwhole ih =>
        rw [linesOf_line hwhole] at h
        cases place with
        | zero =>
            obtain rfl := Option.some.inj h
            exact ⟨[], ⟨.inl rfl, hwhole, .inl ⟨rest, rfl⟩⟩, rfl⟩
        | succ place =>
            obtain ⟨before, hline, hcount⟩ := ih h
            refine ⟨first ++ newline :: before, hline.later, ?_⟩
            rw [List.count_append, List.count_cons_self, List.count_eq_zero.mpr hwhole, hcount]
            omega
  · rintro ⟨before, ⟨hopens, hwhole, hends⟩, rfl⟩
    -- the lines before it are as many as the newlines before it
    rw [← length_linesOf hopens]
    rcases hends with ⟨after, rfl⟩ | ⟨rfl, hne⟩
    · rw [linesOf_append hopens, linesOf_line hwhole]
      simp
    · rw [linesOf_append hopens, linesOf_of_not_mem hwhole, if_neg hne]
      simp

/-! ## What is found on the lines -/

/-- What is found on some lines, numbered from one. -/
def foundOn (lines : List (Except FileError (List UInt8))) : List Finding :=
  (lines.zipIdx 1).filterMap findOn

theorem findings_eq (log : LogContent) : log.findings = foundOn log.lines := rfl

/-- The same finding, some lines further down. -/
def Finding.later (lines : Nat) (finding : Finding) : Finding :=
  { finding with line := finding.line + lines }

/-- A finding bears the number of its line. -/
theorem line_of_findOn {content : Except FileError (List UInt8)} {line : Nat} {finding : Finding}
    (h : findOn (content, line) = some finding) : finding.line = line := by
  cases content with
  | error error => cases h; rfl
  | ok bytes =>
      simp only [findOn] at h
      cases hread : readLine bytes with
      | error error => rw [hread] at h; cases h; rfl
      | ok found =>
          rw [hread] at h
          cases found with
          | none => cases h
          | some marker => cases h; rfl

/-- What is found on a line does not depend on its number. -/
theorem findOn_later (content : Except FileError (List UInt8)) (line lines : Nat) :
    findOn (content, line + lines) = (findOn (content, line)).map (Finding.later lines) := by
  cases content with
  | error error => rfl
  | ok bytes =>
      simp only [findOn]
      cases readLine bytes with
      | error error => rfl
      | ok found => cases found <;> rfl

/-- What is found on further lines counts on from the lines before. -/
theorem foundOn_append (before after : List (Except FileError (List UInt8))) :
    foundOn (before ++ after) = foundOn before ++ (foundOn after).map (.later before.length) := by
  have hshift : after.zipIdx (1 + before.length)
      = (after.zipIdx 1).map (Prod.map id (· + before.length)) := by
    rw [List.map_snd_add_zipIdx_eq_zipIdx, Nat.add_comm]
  have hlater : findOn ∘ Prod.map id (· + before.length)
      = fun item => (findOn item).map (.later before.length) := by
    funext ⟨content, line⟩
    exact findOn_later content line before.length
  simp only [foundOn]
  rw [List.zipIdx_append, List.filterMap_append, hshift, List.filterMap_map, hlater,
    List.map_filterMap]

/-- One line more: its finding comes last, with the next number. -/
theorem foundOn_concat (lines : List (Except FileError (List UInt8)))
    (content : Except FileError (List UInt8)) :
    foundOn (lines ++ [content])
      = foundOn lines ++ (findOn (content, lines.length + 1)).toList := by
  rw [foundOn_append, Nat.add_comm, findOn_later]
  cases hone : findOn (content, 1) with
  | none => simp [foundOn, hone]
  | some finding => simp [foundOn, hone]

theorem lines_whole (bytes : List UInt8) :
    LogContent.lines ⟨bytes, none⟩ = (linesOf bytes).map .ok := rfl

theorem lines_broken (bytes : List UInt8) (error : FileError) :
    LogContent.lines ⟨bytes, some error⟩
      = (pieces newline bytes).dropLast.map .ok ++ [.error error] := rfl

/-- The lines of a log that is cut behind a newline; an error that ends the
    reading ends that of the second part. -/
theorem lines_append {a : List UInt8} (h : EndsLine a) (b : List UInt8)
    (fault : Option FileError) :
    LogContent.lines ⟨a ++ b, fault⟩
      = LogContent.lines ⟨a, none⟩ ++ LogContent.lines ⟨b, fault⟩ := by
  cases fault with
  | none => rw [lines_whole, lines_whole, lines_whole, linesOf_append h, List.map_append]
  | some error =>
      rw [lines_broken, lines_whole, lines_broken, pieces_append h,
        List.dropLast_append_of_ne_nil (pieces_ne_nil newline b), List.map_append,
        List.append_assoc]

theorem length_lines_whole {a : List UInt8} (h : EndsLine a) :
    (LogContent.lines ⟨a, none⟩).length = a.count newline := by
  rw [lines_whole, List.length_map, length_linesOf h]

/-- The lines that a log begins with do not depend on what follows them. -/
theorem take_lines_append {a : List UInt8} (h : EndsLine a) (b : List UInt8)
    (fault : Option FileError) {count : Nat} (hle : count ≤ a.count newline) :
    (LogContent.lines ⟨a ++ b, fault⟩).take count = (LogContent.lines ⟨a, none⟩).take count := by
  rw [lines_append h, List.take_append_of_le_length]
  exact (length_lines_whole h).symm ▸ hle

/-- **FINDINGS OF TWO PARTS**: what is found in a log that is cut behind a newline
    is what is found in the first part, and then what is found in the second,
    further down by as many lines as the first part has newlines. -/
theorem findings_append {a : List UInt8} (h : EndsLine a) (b : List UInt8)
    (fault : Option FileError) :
    LogContent.findings ⟨a ++ b, fault⟩
      = LogContent.findings ⟨a, none⟩
        ++ (LogContent.findings ⟨b, fault⟩).map (.later (a.count newline)) := by
  rw [findings_eq, lines_append h, foundOn_append, length_lines_whole h]
  rfl

/-! ## The numbers of the findings -/

/-- Every sequence can be cut behind its last newline. -/
theorem exists_endsLine_append (bytes : List UInt8) :
    ∃ ended unended, bytes = ended ++ unended ∧ EndsLine ended ∧ newline ∉ unended := by
  induction bytes using lines_induction with
  | last content hwhole => exact ⟨[], content, rfl, .inl rfl, hwhole⟩
  | line content rest hwhole ih =>
      obtain ⟨ended, unended, rfl, hends, hnone⟩ := ih
      exact ⟨content ++ newline :: ended, unended, by simp, endsLine_line_iff.mpr hends, hnone⟩

/-- In a part that ends a line every line is ended. -/
theorem LineAt.ended {ended before content : List UInt8} (h : LineAt ended before content)
    (hends : EndsLine ended) : ∃ after, ended = before ++ (content ++ newline :: after) := by
  rcases h.ends with hafter | ⟨rfl, hne⟩
  · exact hafter
  · -- the last line is ended too, by a newline that it does not hold
    rcases hends with hnil | hlast
    · exact absurd (List.append_eq_nil_iff.mp hnil).2 hne
    · rw [List.getLast?_append_of_ne_nil _ hne] at hlast
      exact absurd (List.mem_of_getLast? hlast) h.whole

/-- **A LINE OF A LOG**: one of its bytes; where the reading breaks off, of an unended
    line nothing is kept. -/
structure LogContent.HasLine (log : LogContent) (before content : List UInt8) : Prop where
  line : LineAt log.bytes before content
  ended : log.fault ≠ none → ∃ after, log.bytes = before ++ (content ++ newline :: after)

/-- Where the reading breaks off, the lines are those of the part that ends a line. -/
theorem hasLine_broken_iff {ended unended before content : List UInt8} (hends : EndsLine ended)
    (hnone : newline ∉ unended) (error : FileError) :
    LogContent.HasLine ⟨ended ++ unended, some error⟩ before content
      ↔ LineAt ended before content := by
  constructor
  · rintro ⟨⟨hopens, hwhole, -⟩, hended⟩
    obtain ⟨after, heq⟩ := hended nofun
    have hcut : ended ++ unended = (before ++ (content ++ [newline])) ++ after :=
      heq.trans (by simp)
    rcases List.append_eq_append_iff.mp hcut with ⟨more, hmore, hafter⟩ | ⟨more, hended, -⟩
    · -- the newline would have to be among the bytes behind the last one
      by_cases hempty : more = []
      · refine ⟨hopens, hwhole, .inl ⟨[], ?_⟩⟩
        rw [hempty, List.append_nil] at hmore
        exact hmore.symm
      · have hlast : more.getLast? = some newline := by
          rw [← List.getLast?_append_of_ne_nil ended hempty, ← hmore, ← List.append_assoc]
          exact List.getLast?_concat
        exact absurd (hafter ▸ List.mem_append_left after (List.mem_of_getLast? hlast)) hnone
    · exact ⟨hopens, hwhole, .inl ⟨more, hended.trans (by simp)⟩⟩
  · intro h
    obtain ⟨after, heq⟩ := h.ended hends
    have hafter : ended ++ unended = before ++ (content ++ newline :: (after ++ unended)) := by
      rw [heq]
      simp
    exact ⟨⟨h.opens, h.whole, .inl ⟨_, hafter⟩⟩, fun _ => ⟨_, hafter⟩⟩

/-- Where the reading breaks off, the error follows the lines that are ended. -/
theorem lines_broken_append {ended unended : List UInt8} (hends : EndsLine ended)
    (hnone : newline ∉ unended) (error : FileError) :
    LogContent.lines ⟨ended ++ unended, some error⟩
      = (linesOf ended).map .ok ++ [.error error] := by
  rw [lines_append hends, lines_whole, lines_broken, pieces_of_not_mem hnone]
  rfl

/-- **PLACES IN A LOG**: a line of a log stands at the place that the newlines before it
    count. -/
theorem getElem?_lines_eq_ok {log : LogContent} {content : List UInt8} {place : Nat} :
    log.lines[place]? = some (.ok content)
      ↔ ∃ before, log.HasLine before content ∧ before.count newline = place := by
  obtain ⟨bytes, fault⟩ := log
  cases fault with
  | none =>
      have hline (before : List UInt8) :
          LogContent.HasLine ⟨bytes, none⟩ before content ↔ LineAt bytes before content :=
        ⟨fun h => h.line, fun h => ⟨h, fun hfault => absurd rfl hfault⟩⟩
      rw [lines_whole, List.getElem?_map, Option.map_eq_some_iff]
      simp only [hline, ← getElem?_linesOf]
      simp
  | some error =>
      obtain ⟨ended, unended, rfl, hends, hnone⟩ := exists_endsLine_append bytes
      simp only [hasLine_broken_iff hends hnone, ← getElem?_linesOf]
      rw [lines_broken_append hends hnone, List.getElem?_append]
      split
      · simp
      · rename_i hplace
        rw [List.length_map, Nat.not_lt] at hplace
        rw [List.getElem?_eq_none hplace, List.getElem?_singleton]
        simp

/-- The error that ends the reading stands behind all lines that are ended. -/
theorem getElem?_lines_eq_error {log : LogContent} {error : FileError} {place : Nat} :
    log.lines[place]? = some (.error error)
      ↔ log.fault = some error ∧ place = log.bytes.count newline := by
  obtain ⟨bytes, fault⟩ := log
  cases fault with
  | none => simp [lines_whole]
  | some fault =>
      obtain ⟨ended, unended, rfl, hends, hnone⟩ := exists_endsLine_append bytes
      have hcount : (ended ++ unended).count newline = (linesOf ended).length := by
        rw [List.count_append, List.count_eq_zero.mpr hnone, length_linesOf hends, Nat.add_zero]
      simp only [hcount]
      rw [lines_broken_append hends hnone, List.getElem?_append]
      split
      · rename_i hplace
        rw [List.length_map] at hplace
        simp [Nat.ne_of_lt hplace]
      · rename_i hplace
        rw [List.length_map, Nat.not_lt] at hplace
        have hsame : place - (linesOf ended).length = 0 ↔ place = (linesOf ended).length := by
          omega
        rw [List.length_map, List.getElem?_singleton, Option.ite_none_right_eq_some, hsame,
          and_comm]
        simp

/-- What is found where no line is ended and the reading breaks off. -/
theorem findings_broken {unended : List UInt8} (h : newline ∉ unended) (error : FileError) :
    LogContent.findings ⟨unended, some error⟩ = [⟨1, .error (.unreadable error)⟩] := by
  rw [findings_eq, lines_broken, pieces_of_not_mem h]
  rfl

/-- The findings of a line come first, and the others are further down by one. -/
theorem findings_line {content : List UInt8} (h : newline ∉ content) (rest : List UInt8)
    (fault : Option FileError) :
    LogContent.findings ⟨content ++ newline :: rest, fault⟩
      = (findOn (.ok content, 1)).toList
        ++ (LogContent.findings ⟨rest, fault⟩).map (.later 1) := by
  have hends : EndsLine (content ++ [newline]) := .inr List.getLast?_concat
  have hcount : (content ++ [newline]).count newline = 1 := by
    rw [List.count_append, List.count_eq_zero.mpr h, List.count_singleton_self]
  have hfirst : LogContent.findings ⟨content ++ [newline], none⟩
      = (findOn (.ok content, 1)).toList := by
    rw [findings_eq, lines_whole, linesOf_line h]
    exact foundOn_concat [] (.ok content)
  rw [List.append_cons, findings_append hends, hcount, hfirst]

/-- Without a newline there is at most one line, and nothing is found where there
    is none. -/
theorem findings_of_not_mem {content : List UInt8} (h : newline ∉ content)
    (fault : Option FileError) :
    LogContent.findings ⟨content, fault⟩
      = match fault with
        | none => (findOn (.ok content, 1)).toList
        | some error => [⟨1, .error (.unreadable error)⟩] := by
  cases fault with
  | none =>
      rw [findings_eq, lines_whole, linesOf_of_not_mem h]
      by_cases hempty : content = []
      · rw [if_pos hempty, hempty]
        rfl
      · rw [if_neg hempty]
        exact foundOn_concat [] (.ok content)
  | some error => exact findings_broken h error

/-- **NUMBERS**: what is found in a log is what is found on its lines, and the error that
    ends the reading; each bears the number of newlines before, plus one. -/
theorem mem_findings_iff_hasLine {log : LogContent} {finding : Finding} :
    finding ∈ log.findings
      ↔ (∃ before content, log.HasLine before content
          ∧ findOn (.ok content, before.count newline + 1) = some finding)
        ∨ ∃ error, log.fault = some error
          ∧ finding = ⟨log.bytes.count newline + 1, .error (.unreadable error)⟩ := by
  have hplaces : finding ∈ log.findings
      ↔ ∃ content place, log.lines[place]? = some content
        ∧ findOn (content, place + 1) = some finding := by
    rw [LogContent.findings, List.mem_filterMap]
    constructor
    · rintro ⟨⟨content, line⟩, hmem, hfound⟩
      obtain ⟨hle, hget⟩ := List.mk_mem_zipIdx_iff_le_and_getElem?_sub.mp hmem
      obtain ⟨place, rfl⟩ := Nat.exists_eq_add_of_le' hle
      exact ⟨content, place, hget, hfound⟩
    · rintro ⟨content, place, hget, hfound⟩
      refine ⟨(content, place + 1), ?_, hfound⟩
      exact List.mk_mem_zipIdx_iff_le_and_getElem?_sub.mpr ⟨Nat.le_add_left 1 place, hget⟩
  rw [hplaces]
  constructor
  · rintro ⟨content, place, hline, hfound⟩
    cases content with
    | ok content =>
        obtain ⟨before, hat, rfl⟩ := getElem?_lines_eq_ok.mp hline
        exact .inl ⟨before, content, hat, hfound⟩
    | error error =>
        obtain ⟨hfault, rfl⟩ := getElem?_lines_eq_error.mp hline
        exact .inr ⟨error, hfault, (Option.some.inj hfound).symm⟩
  · rintro (⟨before, content, hline, hfound⟩ | ⟨error, hfault, rfl⟩)
    · exact ⟨.ok content, _, getElem?_lines_eq_ok.mpr ⟨before, hline, rfl⟩, hfound⟩
    · exact ⟨.error error, _, getElem?_lines_eq_error.mpr ⟨hfault, rfl⟩, rfl⟩

/-- Findings further back in a log bear greater numbers. -/
theorem findings_increasing (log : LogContent) :
    log.findings.Pairwise fun earlier later => earlier.line < later.line := by
  have hnumbers : ((log.lines.zipIdx 1).map Prod.snd).Pairwise (· < ·) := by
    rw [List.zipIdx_map_snd]
    exact List.pairwise_lt_range' 1
  refine List.Pairwise.filterMap findOn ?_ (List.pairwise_map.mp hnumbers)
  rintro ⟨content, line⟩ ⟨content', line'⟩ hlt finding hfound finding' hfound'
  rw [line_of_findOn hfound, line_of_findOn hfound']
  exact hlt

end RunTimings
