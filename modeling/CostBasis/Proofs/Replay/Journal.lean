import CostBasis.Proofs.Json.Visible
import CostBasis.Proofs.Replay.Course
import CostBasis.Proofs.Replay.Lines
import CostBasis.Proofs.Text

/-!
# Writing and replaying a journal

The lines of records, joined by line ends, are split where they were joined and say what the records say.
To replay them is to apply the fills of the records.
-/

namespace CostBasis

/-! ## Splitting -/

theorem linesFrom_append {bytes : List UInt8} (unbroken : lineFeed ∉ bytes) (current rest : List UInt8) :
    linesFrom current (bytes ++ rest) = linesFrom (bytes.reverse ++ current) rest := by
  induction bytes generalizing current with
  | nil => rfl
  | cons b bytes ih =>
    rw [List.mem_cons, not_or] at unbroken
    rw [List.cons_append, linesFrom, if_neg (Ne.symm unbroken.1), ih unbroken.2, List.reverse_cons,
      List.append_assoc, List.singleton_append]

theorem endLine_reverse {bytes : List UInt8} (whole : carriageReturn ∉ bytes) :
    endLine bytes.reverse = bytes := by
  cases reversed : bytes.reverse with
  | nil => exact (List.reverse_eq_nil_iff.mp reversed).symm
  | cons b rest =>
    have last : b ≠ carriageReturn := by
      rintro rfl
      exact whole (List.mem_reverse.mp (reversed ▸ List.mem_cons_self))
    rw [endLine, if_neg last, ← reversed, List.reverse_reverse]

/-- Texts that are single lines. -/
structure SingleLine (s : String) : Prop where
  ne_empty : s ≠ ""
  unbroken : '\n' ∉ s.toList ∧ '\r' ∉ s.toList

theorem encode_empty : Text.encode "" = [] := by
  rw [Text.encode_eq]
  rfl

theorem encode_newline : Text.encode "\n" = [lineFeed] := by
  rw [Text.encode_eq]
  rfl

theorem SingleLine.encode {s : String} (single : SingleLine s) :
    Text.encode s ≠ [] ∧ lineFeed ∉ Text.encode s ∧ carriageReturn ∉ Text.encode s := by
  refine ⟨fun empty => ?_, fun mem => ?_, fun mem => ?_⟩
  · have read := Text.decode?_encode s
    rw [empty, ← encode_empty, Text.decode?_encode] at read
    exact single.ne_empty (Option.some.inj read).symm
  · obtain ⟨c, c_mem, code⟩ := Text.exists_of_mem_encode (by decide) mem
    have same : c = '\n' := Char.toNat_inj.mp code
    exact single.unbroken.1 (same ▸ c_mem)
  · obtain ⟨c, c_mem, code⟩ := Text.exists_of_mem_encode (by decide) mem
    have same : c = '\r' := Char.toNat_inj.mp code
    exact single.unbroken.2 (same ▸ c_mem)

/-- Lines are split where they were joined. -/
theorem linesFrom_intercalate {lines : List String} (single : ∀ s ∈ lines, SingleLine s) :
    linesFrom [] (Text.encode ("\n".intercalate lines)) = lines.map Text.encode := by
  -- By the texts: a line that is followed by another one ends where the next one begins.
  induction lines with
  | nil =>
    rw [String.intercalate_nil, encode_empty]
    rfl
  | cons s lines ih =>
    rw [List.forall_mem_cons] at single
    obtain ⟨any, unbroken, whole⟩ := single.1.encode
    cases lines with
    | nil =>
      rw [String.intercalate_singleton, ← List.append_nil (Text.encode s), linesFrom_append unbroken,
        List.append_nil, linesFrom, if_neg (by simpa using any), List.reverse_reverse]
      rfl
    | cons next lines =>
      rw [String.intercalate_cons_cons, Text.encode_append, Text.encode_append, encode_newline,
        List.append_assoc, List.singleton_append, linesFrom_append unbroken, linesFrom, if_pos rfl,
        List.append_nil, endLine_reverse whole, ih single.2]
      rfl

/-! ## The lines of records -/

namespace Record

/-- A line begins with a brace, so it is not blank. -/
theorem exists_toList_line (r : Record) : ∃ cs, r.line.toList = '\x7b' :: cs :=
  ⟨_, String.toList_ofList⟩

theorem singleLine_line (r : Record) : SingleLine r.line := by
  have visible : Json.Visible r.line.toList := by
    rw [line, Json.render, String.toList_ofList]
    exact Json.visible_print r.toJson
  obtain ⟨cs, text⟩ := r.exists_toList_line
  refine ⟨fun empty => ?_, fun mem => ?_, fun mem => ?_⟩
  · rw [empty] at text
    cases text
  · exact absurd (visible _ mem) (by decide)
  · exact absurd (visible _ mem) (by decide)

theorem not_blank_line (r : Record) : r.line.toList.all Text.isBlank = false := by
  obtain ⟨cs, text⟩ := r.exists_toList_line
  rw [text, List.all_cons]
  rfl

theorem ofBytes_encode_line {r : Record} (timely : r.report.timestamp < pow2 64) :
    Line.ofBytes (Text.encode r.line) = .record r.plain := by
  simp only [Line.ofBytes, Text.decode?_encode, Line.ofText, r.not_blank_line, parse?_line timely]
  rfl

/-- A record on a line of its own, and what comes after it. -/
theorem journalLines_line {r : Record} (timely : r.report.timestamp < pow2 64) (rest : List UInt8) :
    journalLines (Text.encode r.line ++ lineFeed :: rest) = .record r.plain :: journalLines rest := by
  obtain ⟨_, unbroken, whole⟩ := r.singleLine_line.encode
  rw [journalLines, linesFrom_append unbroken, linesFrom, if_pos rfl, List.append_nil, endLine_reverse whole,
    List.map_cons, ofBytes_encode_line timely]
  rfl

/-- The journal of records: their lines, with line ends between them. -/
def journal (records : List Record) : List UInt8 :=
  Text.encode ("\n".intercalate (records.map line))

theorem journalLines_journal {records : List Record}
    (timely : ∀ r ∈ records, r.report.timestamp < pow2 64) :
    journalLines (journal records) = records.map fun r => .record r.plain := by
  have single : ∀ s ∈ records.map line, SingleLine s :=
    List.forall_mem_map.mpr fun r _ => r.singleLine_line
  rw [journalLines, journal, linesFrom_intercalate single, List.map_map, List.map_map]
  exact List.map_congr_left fun r mem => ofBytes_encode_line (timely r mem)

end Record

/-! ## Signs of zeros -/

namespace Decimal

@[simp] theorem value_plain (d : Decimal) : d.plain.value = d.value := by
  rw [value_eq_coefficient, value_eq_coefficient, coefficient_plain]
  rfl

theorem pos_plain_iff (d : Decimal) : 0 < d.plain ↔ 0 < d := by
  rw [lt_iff, lt_iff, value_plain]

theorem value_of_plain_ne {d : Decimal} (signed : d.plain ≠ d) : d.value = 0 := by
  rw [ne_eq, plain_eq_self_iff, not_not] at signed
  exact (isZero_iff d).mp signed.2

end Decimal

theorem ExecutionReport.hasFill_plain (r : ExecutionReport) : r.plain.HasFill ↔ r.HasFill :=
  and_congr_left' r.lastFillQuantity.pos_plain_iff

/-- A fill at no price is refused. -/
theorem Moment.of_no_price {m : Moment} {symbol : String} {fill : Fill}
    (told : m.command.notified? = some (symbol, fill)) (none : fill.price ≤ 0) :
    m.step.book = (m.before.ensure symbol).value ∧ m.accepted = false ∧ m.refused = true ∧
      ∀ other, m.tradedAt? other = .none := by
  have invalid : (m.before.positionOrNew symbol).apply fill
      = .error (.refused (.invalidFill fill.quantity fill.price)) :=
    Position.fill_of_invalid (.inr none) _ _
  obtain ⟨answer, book, _⟩ := Book.step_of_notified_error told invalid
  have unaccepted : m.accepted = false := by
    simp only [accepted, told, step, answer]
  refine ⟨book, unaccepted, by rw [refused, step, answer]; rfl, fun other => ?_⟩
  rw [tradedAt?_of_told told, unaccepted]
  simp

namespace Record

variable {r : Record}

/-- The signs of zeros change nothing: a price of zero is refused with or without one. -/
theorem step_command_plain (b : Book) (carries : r.report.HasFill) :
    let m : Moment := ⟨b, r.command⟩
    let m' : Moment := ⟨b, r.plain.command⟩
    m'.step.book = m.step.book ∧ m'.accepted = m.accepted ∧ m'.refused = m.refused ∧
      ∀ symbol, m'.tradedAt? symbol = m.tradedAt? symbol := by
  intro m m'
  have quantity := Decimal.plain_of_pos carries.1
  by_cases price : r.report.lastFillPrice.plain = r.report.lastFillPrice
  · have told : m'.command.notified? = m.command.notified? := by
      simp only [m, m', command, plain, ExecutionReport.plain, Command.notified?, quantity, price]
    have step : m'.step = m.step := by
      simp only [m, m', Moment.step_mk, command, plain, ExecutionReport.plain, Book.step, Book.apply,
        quantity, price]
    have accepted : m'.accepted = m.accepted := by simp only [Moment.accepted, told, step]
    refine ⟨by rw [step], accepted, by rw [Moment.refused, step]; rfl, fun symbol => ?_⟩
    simp only [Moment.tradedAt?, told, accepted]
  · -- A price that loses its sign is zero, and the fill is refused with it as without it.
    have zero := Decimal.value_of_plain_ne price
    have le : r.report.lastFillPrice ≤ 0 := by rw [Decimal.le_iff, zero, Decimal.value_zero]
    have plain_le : r.report.lastFillPrice.plain ≤ 0 := by
      rw [Decimal.le_iff, Decimal.value_plain, zero, Decimal.value_zero]
    obtain ⟨book, accepted, refused, traded⟩ := Moment.of_no_price (m := m) rfl le
    obtain ⟨book', accepted', refused', traded'⟩ := Moment.of_no_price (m := m') rfl plain_le
    refine ⟨book'.trans book.symm, by rw [accepted, accepted'], by rw [refused, refused'], fun symbol => ?_⟩
    rw [traded, traded']

theorem run_map_plain {records : List Record} (carry : ∀ r ∈ records, r.report.HasFill) (b : Book) :
    let ms := b.moments (records.map command)
    let ms' := b.moments (records.map fun r => r.plain.command)
    (b.run (records.map fun r => r.plain.command)).1 = (b.run (records.map command)).1 ∧
      ms'.countP Moment.accepted = ms.countP Moment.accepted ∧
      ms'.countP Moment.refused = ms.countP Moment.refused ∧
      ∀ symbol, ms'.filterMap (Moment.tradedAt? symbol) = ms.filterMap (Moment.tradedAt? symbol) := by
  induction records generalizing b with
  | nil => exact ⟨rfl, rfl, rfl, fun _ => rfl⟩
  | cons r records ih =>
    rw [List.forall_mem_cons] at carry
    obtain ⟨book, accepted, refused, traded⟩ := step_command_plain b carry.1
    obtain ⟨last, accepted_later, refused_later, traded_later⟩ := ih carry.2 (b.step r.command).book
    rw [Moment.step_mk, Moment.step_mk] at book
    simp only [List.map_cons, Book.run, Book.moments, book, List.countP_cons, accepted, refused,
      accepted_later, refused_later]
    refine ⟨last, trivial, trivial, fun symbol => ?_⟩
    simp only [List.filterMap_cons, traded symbol, traded_later]

/-- What the lines of records ask for is what the records do. -/
theorem fills_map_plain (records : List Record) :
    Line.fills (records.map fun r => .record r.plain)
      = (records.filter fun r => r.report.HasFill).map fun r => r.plain.command := by
  induction records with
  | nil => rfl
  | cons r records ih =>
    rw [List.map_cons, ← List.singleton_append, Line.fills_append, ih, Line.fills_record]
    by_cases carries : r.report.HasFill <;>
      simp [carries, show r.plain.report.HasFill ↔ r.report.HasFill from r.report.hasFill_plain]

theorem filterMap_record?_map_plain (records : List Record) :
    (records.map fun r => Line.record r.plain).filterMap Line.record? = records.map plain := by
  rw [List.filterMap_map, List.filterMap_eq_map_iff_forall_eq_some]
  exact fun r _ => rfl

theorem countP_unfilled_map_plain (records : List Record) :
    (records.map plain).countP (fun r => ¬r.report.HasFill)
      = records.countP fun r => ¬r.report.HasFill := by
  rw [List.countP_map]
  refine List.countP_congr fun r _ => ?_
  simp [show r.plain.report.HasFill ↔ r.report.HasFill from r.report.hasFill_plain]

end Record

namespace Book

open Replay

/-- To write records as a journal and to replay it is to apply the fills of the records.  Each record is
on a line of its own, from which it is read back. -/
theorem replay_journal (settings : Settings) (before : List Command) {records : List Record}
    (timely : ∀ record ∈ records, record.report.timestamp < pow2 64) :
    let b := ((ofSettings settings).value.run before).1
    let r := b.replay false (Record.journal records)
    let fills := (records.filter fun record => record.report.HasFill).map Record.command
    r.stop = none ∧
      r.book = (b.run fills).1 ∧
      r.stats = {
        records := records.length
        applied := (b.moments fills).countP Moment.accepted
        skipped := records.countP fun record => ¬record.report.HasFill
        rejected := (b.moments fills).countP Moment.refused } ∧
      (∀ symbol, r.lastPrices.get? symbol = lastPrice? symbol (b.moments fills)) ∧
      ∀ record ∈ records,
        SingleLine record.line ∧ record.line.toList.all Text.isBlank = false ∧
          ∃ read, (Json.parse? record.line).bind Record.ofJson? = some read ∧ read.Same record ∧
            (record.Unsigned → read = record) := by
  intro b r fills
  have sound : b.Sound := (sound_of_empty rfl).run before
  let lines := records.map fun record => Line.record record.plain
  have split : journalLines (Record.journal records) = lines := Record.journalLines_journal timely
  have readable : ∀ l ∈ lines, l.flaw? = none := List.forall_mem_map.mpr fun _ _ => rfl
  have replayed : r = Replay.feedAll false 1 { book := b } lines := congrArg _ split
  obtain ⟨course, stop⟩ := course_of_readable (r := { book := b }) sound rfl 1 readable
  rw [← replayed] at course stop
  have carry : ∀ record ∈ records.filter (fun record => record.report.HasFill), record.report.HasFill :=
    fun _ mem => of_decide_eq_true (List.mem_filter.mp mem).2
  obtain ⟨book, accepted, refused, traded⟩ := Record.run_map_plain carry b
  rw [← Record.fills_map_plain] at book accepted refused traded
  have nonblank : lines.countP (· ≠ .blank) = records.length := by
    rw [List.countP_eq_length.mpr (by simp [lines]), List.length_map]
  obtain ⟨led, counted, skipped, applied, rejected, lastPrices⟩ := course
  rw [nonblank, Nat.zero_add] at counted
  rw [Record.filterMap_record?_map_plain, Record.countP_unfilled_map_plain, Nat.zero_add] at skipped
  rw [accepted, Nat.zero_add] at applied
  rw [refused, Nat.zero_add] at rejected
  refine ⟨stop, led.trans book, ?_, fun symbol => ?_, fun record mem => ?_⟩
  · rw [← counted, ← skipped, ← applied, ← rejected]
  · rw [lastPrices, lastPrice?, traded symbol]
    exact Option.or_none
  · exact ⟨record.singleLine_line, record.not_blank_line, record.plain,
      Record.parse?_line (timely record mem), record.same_plain, Record.plain_of_unsigned⟩

/-- A fill of a symbol with a line break and quotes in it, a fill at a zero with a sign, and an order that
is new. -/
def brokenSymbolRecords : List Record :=
  let symbol := "A\n\"B\"\r"
  [⟨.buy,
      { symbol, clientOrderId := ⟨"\\\t\x01"⟩, lastFillQuantity := .written 15 1
        lastFillPrice := .written 200 2, status := .filled, timestamp := pow2 64 - 1, reason := some "" }⟩,
    ⟨.sell, { symbol, lastFillQuantity := 1, lastFillPrice := -0, status := .partiallyFilled }⟩,
    ⟨.sell, { symbol := "", lastFillQuantity := 1, lastFillPrice := 1, status := .new }⟩]

theorem replay_journal_brokenSymbols :
    let records := brokenSymbolRecords
    (∀ record ∈ records, record.report.timestamp < pow2 64) ∧
      let b := ((ofSettings {}).value.run []).1
      let r := b.replay false (Record.journal records)
      r.stop = none ∧ r.stats = { records := 3, applied := 1, skipped := 1, rejected := 1 } ∧
        r.lastPrices.get? "A\n\"B\"\r" = some (.written 200 2) ∧ r.lastPrices.get? "" = none := by
  intro records
  have timely : ∀ record ∈ records, record.report.timestamp < pow2 64 := by decide +kernel
  obtain ⟨stop, _, stats, lastPrices, _⟩ := replay_journal {} [] timely
  refine ⟨timely, stop, ?_, ?_, ?_⟩
  · rw [stats]
    decide +kernel
  · rw [lastPrices]
    decide +kernel
  · rw [lastPrices]
    decide +kernel

end Book

end CostBasis
