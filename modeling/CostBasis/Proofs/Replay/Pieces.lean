import CostBasis.Proofs.Replay.Journal

/-!
# Journals in pieces

A journal that is cut after a line end can be replayed piece by piece: the second replay goes on with the
book of the first one, and what the two count, price and report makes up what one replay does.
-/

namespace CostBasis

/-! ## The seam -/

theorem linesFrom_append_of_ended {first : List UInt8} (ended : first.getLast? = some lineFeed)
    (current second : List UInt8) :
    linesFrom current (first ++ second) = linesFrom current first ++ linesFrom [] second := by
  -- Along the bytes, whatever line is at hand: the last byte ends it.
  induction first generalizing current with
  | nil => cases ended
  | cons b rest ih =>
    cases rest with
    | nil =>
      obtain rfl : b = lineFeed := Option.some.inj ended
      rfl
    | cons next rest =>
      have ends := ih (by rwa [List.getLast?_cons_cons] at ended)
      rw [List.cons_append, linesFrom, linesFrom, ends, ends]
      split <;> rfl

theorem length_linesFrom_of_ended {first : List UInt8} (ended : first.getLast? = some lineFeed)
    (current : List UInt8) : (linesFrom current first).length = first.count lineFeed := by
  induction first generalizing current with
  | nil => cases ended
  | cons b rest ih =>
    rw [linesFrom]
    cases rest with
    | nil =>
      obtain rfl : b = lineFeed := Option.some.inj ended
      rfl
    | cons next rest =>
      have ends := ih (by rwa [List.getLast?_cons_cons] at ended)
      by_cases here : b = lineFeed <;> simp [here, ends]

/-- The lines of a journal of which a piece has been cut off after a line end. -/
theorem journalLines_append {first : List UInt8} (ended : first = [] ∨ first.getLast? = some lineFeed)
    (second : List UInt8) :
    journalLines (first ++ second) = journalLines first ++ journalLines second ∧
      (journalLines first).length = first.count lineFeed := by
  obtain rfl | ended := ended
  · exact ⟨rfl, rfl⟩
  · simp only [journalLines, linesFrom_append_of_ended ended, List.map_append, List.length_map,
      length_linesFrom_of_ended ended, and_self]

/-! ## Going on with a replay -/

/-- What two replays have counted. -/
instance : Add Stats where
  add s t := ⟨s.records + t.records, s.applied + t.applied, s.skipped + t.skipped, s.rejected + t.rejected⟩

def Stop.later (n : Nat) (s : Stop) : Stop := { s with line := n + s.line }

namespace Replay

/-- The replay `whole` stands where `r` does, except that it has also done what `before` did, which took
`n` lines. -/
structure Resumes (before : Replay) (n : Nat) (r whole : Replay) : Prop where
  book : whole.book = r.book
  stats : whole.stats = before.stats + r.stats
  lastPrices : ∀ symbol,
    whole.lastPrices.get? symbol = (r.lastPrices.get? symbol).or (before.lastPrices.get? symbol)
  stop : whole.stop = r.stop.map (Stop.later n)

namespace Resumes

variable {before r whole : Replay} {n : Nat}

/-- A replay resumes itself, by one that has its book and nothing else. -/
theorem refl (going : before.stop = none) : Resumes before n { book := before.book } before where
  book := rfl
  stats := by
    change before.stats = ⟨_ + 0, _ + 0, _ + 0, _ + 0⟩
    rfl
  lastPrices _ := rfl
  stop := going

theorem applyFill (resumes : Resumes before n r whole) (strict : Bool) (line : Nat) (record : Record) :
    Resumes before n (r.applyFill strict line record) (whole.applyFill strict (n + line) record) := by
  obtain ⟨book, stats, lastPrices, stop⟩ := resumes
  -- The two books are one, so they give one answer.
  simp only [Replay.applyFill, book]
  split
  next =>
    refine ⟨rfl, ?_, fun symbol => ?_, stop⟩
    · simp only [logAll, stats]
      rfl
    · simp only [Prices.get?_insert, logAll, lastPrices]
      split <;> rfl
  next =>
    refine ⟨rfl, ?_, lastPrices, ?_⟩
    · simp only [logAll, stats]
      rfl
    · cases strict <;> rfl
  next => exact ⟨rfl, stats, lastPrices, rfl⟩

/-- The step: one more line. -/
theorem feed (resumes : Resumes before n r whole) (strict : Bool) (line : Nat) (l : Line) :
    Resumes before n (r.feed strict line l) (whole.feed strict (n + line) l) := by
  obtain ⟨book, stats, lastPrices, stop⟩ := resumes
  cases l with
  | unreadable | malformed => exact ⟨book, stats, lastPrices, rfl⟩
  | blank => exact ⟨book, stats, lastPrices, stop⟩
  | record record =>
    have counted : Resumes before n { r with stats := { r.stats with records := r.stats.records + 1 } }
        { whole with stats := { whole.stats with records := whole.stats.records + 1 } } := by
      refine ⟨book, ?_, lastPrices, stop⟩
      simp only [stats]
      rfl
    rw [Replay.feed, Replay.feed]
    split
    next => exact counted.applyFill strict line record
    next =>
      refine ⟨book, ?_, lastPrices, stop⟩
      simp only [logAll, stats]
      rfl

/-- The run: all lines that follow. -/
theorem feedAll (resumes : Resumes before n r whole) (strict : Bool) (line : Nat) (lines : List Line) :
    Resumes before n (r.feedAll strict line lines) (whole.feedAll strict (n + line) lines) := by
  -- Along the lines; either both replays end at a line, or both go on from it.
  induction lines generalizing r whole line with
  | nil => exact resumes
  | cons l rest ih =>
    have next := resumes.feed strict line l
    have both : (whole.feed strict (n + line) l).stop.isSome = (r.feed strict line l).stop.isSome := by
      rw [next.stop, Option.isSome_map]
    rw [Replay.feedAll, Replay.feedAll, both]
    split
    next => exact next
    next => exact ih next (line + 1)

end Resumes

end Replay

namespace Book

open Replay

/-- A journal may be replayed in two pieces that are cut after a line end.  If the first piece ends the
replay, the second one changes nothing. -/
theorem replay_append (b : Book) (strict : Bool) {first : List UInt8}
    (ended : first = [] ∨ first.getLast? = some lineFeed) (second : List UInt8) :
    let r := b.replay strict first
    let later := r.book.replay strict second
    let whole := b.replay strict (first ++ second)
    (r.stop.isSome → whole = r) ∧
      (r.stop = none →
        whole.book = later.book ∧
        (whole.stop = none ↔ later.stop = none) ∧
        whole.stats = r.stats + later.stats ∧
        (∀ symbol, whole.lastPrices.get? symbol
          = (later.lastPrices.get? symbol).or (r.lastPrices.get? symbol)) ∧
        whole.stop = later.stop.map (Stop.later (journalLines first).length)) ∧
      (journalLines first).length = first.count lineFeed := by
  intro r later whole
  obtain ⟨split, length⟩ := journalLines_append ended second
  have parts : whole = if r.stop.isSome then r
      else r.feedAll strict (1 + (journalLines first).length) (journalLines second) :=
    (congrArg (b.replayLines strict) split).trans (feedAll_append rfl strict 1 _ _)
  refine ⟨fun stopped => ?_, fun going => ?_, length⟩
  · rw [parts, if_pos stopped]
  · rw [if_neg (by simp [going]), Nat.add_comm] at parts
    have resumed : Resumes r (journalLines first).length later whole := by
      rw [parts]
      exact (Resumes.refl going).feedAll strict 1 (journalLines second)
    refine ⟨resumed.book, ?_, resumed.stats, resumed.lastPrices, resumed.stop⟩
    rw [resumed.stop, Option.map_eq_none_iff]

def unitBuy : Record :=
  ⟨.buy, { symbol := "X", lastFillQuantity := 1, lastFillPrice := 1, status := .filled }⟩

/-- One fill in each piece, and a line after them that is no text. -/
theorem replay_append_unitBuys :
    let b := (ofSettings {}).value
    let first := Text.encode unitBuy.line ++ [lineFeed]
    let second := Text.encode unitBuy.line ++ [lineFeed, 255]
    (first = [] ∨ first.getLast? = some lineFeed) ∧ (b.replay true first).stop = none ∧
      (b.replay true (first ++ second)).stop = some ⟨3, .unreadable⟩ ∧
      (b.replay true (first ++ second)).stats = { records := 2, applied := 2 } ∧
      (b.replay true (first ++ second)).book = ((b.replay true first).book.replay true second).book := by
  intro b first second
  have ended : first = [] ∨ first.getLast? = some lineFeed := .inr List.getLast?_concat
  have timely : unitBuy.report.timestamp < pow2 64 := by decide
  have first_lines : journalLines first = [.record unitBuy.plain] := Record.journalLines_line timely []
  have second_lines : journalLines second = .record unitBuy.plain :: journalLines [255] :=
    Record.journalLines_line timely [255]
  have going : (b.replay true first).stop = none := by
    rw [replay, first_lines]
    decide +kernel
  obtain ⟨_, pieces, _⟩ := replay_append b true ended second
  obtain ⟨book, _, stats, _, stop⟩ := pieces going
  refine ⟨ended, going, stop.trans ?_, stats.trans ?_, book⟩
  · rw [replay, replay, first_lines, second_lines]
    decide +kernel
  · rw [replay, replay, first_lines, second_lines]
    decide +kernel

end Book

end CostBasis
