import CostBasis.Replay.Mark
import CostBasis.Proofs.Book.Summary
import CostBasis.Proofs.Replay.Journal

/-!
# The report of a replay

A replay that comes to its end on a book without positions leaves a price for every position that it traded.
A position without a price was opened by refused fills alone and has nothing to count, so the report leaves
out no holding: its summary is the sum of its snapshots.
-/

namespace CostBasis

/-! ## Last prices -/

theorem isSome_getLast?_filterMap {α β : Type} {f : α → Option β} {xs : List α} :
    (xs.filterMap f).getLast?.isSome = true ↔ ∃ x ∈ xs, (f x).isSome = true := by
  rw [List.getLast?_isSome, ne_eq, List.filterMap_eq_nil_iff]
  simp only [not_forall, Option.isSome_iff_ne_none, exists_prop, ne_eq]

def Mark.price? (symbol : String) (mark : Mark) : Option Decimal :=
  if mark.symbol = symbol then some mark.price else none

def lastMark? (symbol : String) (marks : List Mark) : Option Decimal :=
  (marks.filterMap (Mark.price? symbol)).getLast?

theorem isSome_lastMark? {symbol : String} {marks : List Mark} :
    (lastMark? symbol marks).isSome = true ↔ ∃ mark ∈ marks, mark.symbol = symbol := by
  rw [lastMark?, isSome_getLast?_filterMap]
  simp only [Mark.price?, Option.isSome_ite]

/-- A mark replaces the price that was there. -/
theorem Prices.get?_withMarks (p : Prices) (marks : List Mark) (symbol : String) :
    (p.withMarks marks).get? symbol = (lastMark? symbol marks).or (p.get? symbol) := by
  induction marks generalizing p with
  | nil => rfl
  | cons mark marks ih =>
    have inserted : (p.insert mark.symbol mark.price).get? symbol
        = (mark.price? symbol).or (p.get? symbol) := by
      rw [get?_insert]
      by_cases here : symbol = mark.symbol
      · simp [Mark.price?, here]
      · simp [Mark.price?, here, Ne.symm here]
    have last : lastMark? symbol (mark :: marks) = (lastMark? symbol marks).or (mark.price? symbol) := by
      simp only [lastMark?, List.filterMap_cons]
      cases mark.price? symbol <;> simp [List.getLast?_cons]
    rw [last, Option.or_assoc, ← inserted]
    exact ih (p.insert mark.symbol mark.price)

namespace Moment

theorem isSome_tradedAt? {m : Moment} {symbol : String} :
    (m.tradedAt? symbol).isSome = true ↔ m.accepted = true ∧ m.command.symbol? = some symbol := by
  cases told : m.command.notified? with
  | none =>
    have silent : m.accepted = false := by simp only [accepted, told]
    simp [tradedAt?, told, silent]
  | some fill =>
    obtain ⟨traded, fill⟩ := fill
    rw [tradedAt?_of_told told, (Command.of_notified told).1, Option.isSome_ite, Option.some.injEq,
      eq_comm (a := symbol)]

end Moment

theorem isSome_lastPrice? {symbol : String} {ms : List Moment} :
    (lastPrice? symbol ms).isSome = true
      ↔ ∃ m ∈ ms, m.accepted = true ∧ m.command.symbol? = some symbol := by
  simp only [lastPrice?, isSome_getLast?_filterMap, Moment.isSome_tradedAt?]

namespace Book

/-! ## Positions that fills have left -/

/-- What fills leave of a book without positions.  They open a position for each of their symbols, and one
that none of them has traded is still as it was opened. -/
structure Opened (method : Method) (ms : List Moment) (b : Book) : Prop where
  defaultMethod : b.defaultMethod = method
  isSome_find? : ∀ symbol, (b.find? symbol).isSome = true ↔ ∃ m ∈ ms, m.command.symbol? = some symbol
  untraded : ∀ symbol p, b.find? symbol = some p → lastPrice? symbol ms = none → p = .new symbol method

theorem Opened.positionOrNew {method : Method} {ms : List Moment} {b : Book} (opened : Opened method ms b)
    {symbol : String} (untraded : lastPrice? symbol ms = none) :
    b.positionOrNew symbol = .new symbol method := by
  rw [Book.positionOrNew]
  cases found : b.find? symbol with
  | none => rw [Option.getD_none, opened.defaultMethod]
  | some p => exact opened.untraded symbol p found untraded

theorem served_of_not_accepted {b : Book} {c : Command} {symbol : String} {fill : Fill}
    (told : c.notified? = some (symbol, fill)) (silent : (⟨b, c⟩ : Moment).accepted = false) :
    b.served symbol c = b.positionOrNew symbol := by
  rw [served, (Command.of_notified told).2, Option.elim_some, Position.serve]
  cases filled : (b.positionOrNew symbol).apply fill with
  | error failure => rfl
  | ok result =>
    simp only [Moment.accepted, Moment.step_mk, told, (step_of_notified_ok told filled).1] at silent
    cases silent

theorem Opened.step {method : Method} {ms : List Moment} {b : Book} (opened : Opened method ms b)
    {c : Command} (told : c.notified?.isSome = true) :
    Opened method (ms ++ [⟨b, c⟩]) (b.step c).book := by
  obtain ⟨⟨traded, fill⟩, told⟩ := Option.isSome_iff_exists.mp told
  have named := (Command.of_notified told).1
  constructor
  case defaultMethod =>
    rw [defaultMethod_step, Command.defaultMethod?_of_symbol named]
    exact opened.defaultMethod
  case isSome_find? =>
    intro symbol
    rw [find?_step_of_symbol named]
    by_cases here : traded = symbol
    · simp [named, here]
    · simp [named, here, opened.isSome_find?]
  case untraded =>
    intro symbol p found untraded
    rw [lastPrice?_append, Option.or_eq_none_iff, lastPrice?_singleton] at untraded
    rw [find?_step_of_symbol named] at found
    split at found
    next here =>
      cases here
      cases found
      -- No price was left behind, so the fill was refused and the position is still the one before it.
      have silent : (⟨b, c⟩ : Moment).accepted = false := by
        simpa [Moment.tradedAt?_of_told (m := ⟨b, c⟩) told] using untraded.1
      rw [served_of_not_accepted told silent, opened.positionOrNew untraded.2]
    next => exact opened.untraded symbol p found untraded.2

theorem opened_run {b : Book} (empty : b.positions = []) {commands : List Command}
    (told : ∀ c ∈ commands, c.notified?.isSome = true) :
    Opened b.defaultMethod (b.moments commands) (b.run commands).1 := by
  induction commands using List.reverseRecOn with
  | nil => constructor <;> simp [moments, run, find?, empty]
  | append_singleton commands c ih =>
    rw [List.forall_mem_append, List.forall_mem_singleton] at told
    rw [moments_append, book_run_concat]
    exact (ih told.1).step told.2

theorem mem_moments {b : Book} (sound : b.Sound) {commands : List Command} {m : Moment}
    (mem : m ∈ b.moments commands) : m.before.Sound ∧ m.command ∈ commands := by
  induction commands generalizing b with
  | nil => cases mem
  | cons c rest ih =>
    rw [moments, List.mem_cons] at mem
    rcases mem with rfl | mem
    · exact ⟨sound, List.mem_cons_self⟩
    · obtain ⟨sound', mem'⟩ := ih (sound.step c) mem
      exact ⟨sound', List.mem_cons_of_mem c mem'⟩

/-- The fills of a symbol are those of it that are accepted and those that are refused. -/
theorem exists_named_iff {ms : List Moment}
    (fills : ∀ m ∈ ms, m.before.Sound ∧ m.command.notified?.isSome = true) (symbol : String) :
    (∃ m ∈ ms, m.command.symbol? = some symbol) ↔
      (∃ m ∈ ms, m.accepted = true ∧ m.command.symbol? = some symbol) ∨
        ∃ m ∈ ms, m.refused = true ∧ m.command.symbol? = some symbol := by
  constructor
  · rintro ⟨m, mem, named⟩
    obtain ⟨sound, told⟩ := fills m mem
    obtain ⟨accepted, _⟩ | ⟨_, refused, _⟩ := Moment.accepted_or_refused sound told
    · exact .inl ⟨m, mem, accepted, named⟩
    · exact .inr ⟨m, mem, refused, named⟩
  · rintro (⟨m, mem, _, named⟩ | ⟨m, mem, _, named⟩) <;> exact ⟨m, mem, named⟩

end Book

/-! ## The report -/

open Book Decimal

namespace Replay.Course

variable {b : Book} {lines : List Line} {r : Replay} (course : Course { book := b } lines r)

include course

theorem get?_withMarks (marks : List Mark) (symbol : String) :
    (r.lastPrices.withMarks marks).get? symbol
      = (lastMark? symbol marks).or (lastPrice? symbol (b.moments (Line.fills lines))) := by
  rw [Prices.get?_withMarks, course.lastPrices]
  exact congrArg _ Option.or_none

variable (empty : b.positions = [])

include empty

theorem opened : Opened b.defaultMethod (b.moments (Line.fills lines)) r.book := by
  rw [course.book]
  exact opened_run empty fun _ => Line.notified?_of_mem_fills

theorem nodup : (r.book.positions.map Position.symbol).Nodup := by
  rw [course.book]
  exact nodup_run (by simp [empty]) _

/-- A position without a price has nothing to count. -/
theorem covers (marks : List Mark) : (r.lastPrices.withMarks marks).Covers r.book.positions := by
  intro p mem unpriced
  rw [Position.snapshot?, Option.map_eq_none_iff, course.get?_withMarks, Option.or_eq_none_iff] at unpriced
  have found := (mem_positions_iff (course.nodup empty)).mp mem
  rw [(course.opened empty).untraded p.symbol p found unpriced.2]
  exact Position.idle_new _ _

/-- The symbols that have both a position and a price. -/
theorem opened_and_priced_iff (marks : List Mark) (symbol : String) :
    let ms := b.moments (Line.fills lines)
    (r.book.find? symbol).isSome = true ∧ ((r.lastPrices.withMarks marks).get? symbol).isSome = true ↔
      (∃ m ∈ ms, m.accepted = true ∧ m.command.symbol? = some symbol) ∨
        (∃ mark ∈ marks, mark.symbol = symbol) ∧
          ∃ m ∈ ms, m.refused = true ∧ m.command.symbol? = some symbol := by
  intro ms
  have fills (m : Moment) (mem : m ∈ ms) : m.before.Sound ∧ m.command.notified?.isSome = true := by
    obtain ⟨sound, asked⟩ := mem_moments (sound_of_empty empty) mem
    exact ⟨sound, Line.notified?_of_mem_fills asked⟩
  rw [(course.opened empty).isSome_find?, exists_named_iff fills, course.get?_withMarks, Option.isSome_or,
    Bool.or_eq_true, isSome_lastMark?, isSome_lastPrice?]
  constructor
  · rintro ⟨accepted | refused, marked | accepted⟩
    exacts [.inl accepted, .inl accepted, .inr ⟨marked, refused⟩, .inl accepted]
  · rintro (accepted | ⟨marked, refused⟩)
    exacts [⟨.inl accepted, .inr accepted⟩, ⟨.inr refused, .inl marked⟩]

end Replay.Course

namespace Book

/-- A replay of an empty book that comes to its end leaves no open position without a price.  Whatever the
order of its positions, the report has one snapshot of each symbol that was traded, or that was marked and
had its fills refused, and the summary counts the snapshots. -/
theorem report_addsUp (settings : Settings) (strict : Bool) (journal : List UInt8) (marks : List Mark)
    (positions : List Position) :
    let b := (ofSettings settings).value
    let r := b.replay strict journal
    let ms := b.moments (Line.fills (journalLines journal))
    let prices := r.lastPrices.withMarks marks
    let book := { r.book with positions }
    let snapshots := book.snapshots prices
    r.stop = none → positions.Perm r.book.positions →
      (snapshots.map Snapshot.symbol).Pairwise (· < ·) ∧
      (∀ symbol, symbol ∈ snapshots.map Snapshot.symbol ↔
        (∃ m ∈ ms, m.accepted = true ∧ m.command.symbol? = some symbol) ∨
          (∃ mark ∈ marks, mark.symbol = symbol) ∧
            ∃ m ∈ ms, m.refused = true ∧ m.command.symbol? = some symbol) ∧
      (∀ t ∈ snapshots,
        some t.markPrice = (lastMark? t.symbol marks).or (lastPrice? t.symbol ms) ∧
        (∃ p, r.book.find? t.symbol = some p ∧ t = p.snapshot t.markPrice) ∧
        (Representable (t.size.value * t.markPrice.value) →
          t.exposure.value = t.size.value * t.markPrice.value)) ∧
      (book.summary prices).AddsUp snapshots (positions.filterMap (Position.snapshot? prices)) := by
  intro b r ms prices book snapshots ended perm
  have course : Replay.Course { book := b } (journalLines journal) r :=
    Replay.course_of_ended (sound_of_empty rfl) rfl 1 ended
  have covers : prices.Covers positions := fun p mem => course.covers rfl marks p (perm.mem_iff.mp mem)
  have distinct : (positions.map Position.symbol).Nodup := (perm.map _).nodup_iff.mpr (course.nodup rfl)
  refine ⟨snapshots_increasing distinct prices, fun symbol => ?_, fun t shown => ?_, summary_addsUp covers⟩
  · rw [mem_symbols_snapshots, (perm.map _).mem_iff, ← isSome_find?_iff]
    exact course.opened_and_priced_iff rfl marks symbol
  · obtain ⟨p, held, snapped⟩ := mem_snapshots.mp shown
    obtain ⟨price, found, rfl⟩ := Option.map_eq_some_iff.mp snapped
    have there := (mem_positions_iff (course.nodup rfl)).mp (perm.mem_iff.mp held)
    exact ⟨found.symm.trans (course.get?_withMarks marks p.symbol), ⟨p, there, rfl⟩, value_saturatingMul⟩

/-- A holding that is bought and sold in part, one that is sold short, and two symbols whose fills are
refused. -/
def portfolioRecords : List Record :=
  let filled (symbol : String) (side : Side) (quantity price : Decimal) : Record :=
    ⟨side,
      { symbol, lastFillQuantity := quantity, lastFillPrice := price, status := .filled }⟩
  [filled "B" .sell 1 (.written 5 0), filled "A" .buy (.written 2 0) (.written 100 1),
    filled "A" .sell 1 (.written 12 0), filled "C" .buy 1 0, filled "D" .buy 1 0]

def portfolioMarks : List Mark := [⟨"C", 1⟩, ⟨"A", 1⟩, ⟨"A", .written 13 0⟩]

theorem report_addsUp_portfolio :
    let b := (ofSettings {}).value
    let r := b.replay false (Record.journal portfolioRecords)
    let prices := r.lastPrices.withMarks portfolioMarks
    let positions := r.book.positions.reverse
    let book := { r.book with positions }
    let snapshots := book.snapshots prices
    let summary := book.summary prices
    r.stop = none ∧ positions.Perm r.book.positions ∧
      "C" ∈ snapshots.map Snapshot.symbol ∧ "D" ∉ snapshots.map Snapshot.symbol ∧
      summary.unpricedSymbols = [] ∧
      summary.realizedPnl.value = total (snapshots.map Snapshot.realizedPnl) ∧
      summary.unrealizedPnl.value = total (snapshots.map Snapshot.unrealizedPnl) ∧
      summary.grossExposure.value = total (snapshots.map Snapshot.notionalValue) ∧
      summary.netExposure.value = total (snapshots.map Snapshot.exposure) ∧
      summary.totalPnl.value = total (snapshots.map Snapshot.totalPnl) := by
  have report := report_addsUp {} false (Record.journal portfolioRecords) portfolioMarks
  have split : journalLines (Record.journal portfolioRecords)
      = portfolioRecords.map fun record => .record record.plain :=
    Record.journalLines_journal (by decide +kernel)
  -- The lines of the journal are the records themselves, which leaves no text to be read.
  simp only [replay, split] at report ⊢
  set r := (ofSettings {}).value.replayLines false (portfolioRecords.map fun record => .record record.plain)
  set prices := r.lastPrices.withMarks portfolioMarks
  set positions := r.book.positions.reverse
  set book := { r.book with positions }
  set held := positions.filterMap (Position.snapshot? prices)
  have ended : r.stop = none := by decide +kernel
  obtain ⟨_, shown, _, addsUp⟩ := report positions ended (List.reverse_perm _)
  have exact (share : Snapshot → Decimal) (scale : ∀ d ∈ held.map share, d.scale ≤ 1)
      (small : total ((held.map share).map Decimal.abs) * 10 ^ 1 < 2 ^ 96) : AddsExactly (held.map share) :=
    addsExactly_of_scale (by decide) scale small
  have realized := exact Snapshot.realizedPnl (by decide +kernel) (by decide +kernel)
  have unrealized := exact Snapshot.unrealizedPnl (by decide +kernel) (by decide +kernel)
  refine ⟨ended, List.reverse_perm _, ?_, ?_, addsUp.unpricedSymbols, addsUp.realizedPnl realized,
    addsUp.unrealizedPnl unrealized, addsUp.grossExposure (exact _ (by decide +kernel) (by decide +kernel)),
    addsUp.netExposure (exact _ (by decide +kernel) (by decide +kernel)),
    addsUp.totalPnl realized unrealized ?_ fun t mem => ⟨t.totalPnl, ?_⟩⟩
  · rw [shown]
    decide +kernel
  · rw [shown]
    decide +kernel
  · rw [← addsUp.realizedPnl realized, ← addsUp.unrealizedPnl unrealized]
    exact ⟨(book.summary prices).totalPnl, by decide +kernel⟩
  · have each : ∀ t ∈ held, t.totalPnl.value = t.realizedPnl.value + t.unrealizedPnl.value := by
      decide +kernel
    exact each t ((snapshots_perm book prices).mem_iff.mp mem)

end Book

end CostBasis
