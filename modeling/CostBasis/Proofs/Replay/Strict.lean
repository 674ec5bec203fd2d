import CostBasis.Proofs.Replay.Course

/-!
# Strict replays

A strict replay goes as any other does until a fill is refused.  There it ends, with the error of that
fill, where the other replay is after the same line; a line that cannot be read before it ends both.
-/

namespace CostBasis

namespace Line

/-- The lines before the first one that cannot be read or holds no record. -/
def readable (lines : List Line) : List Line := lines.takeWhile fun l => l.flaw? = none

theorem readable_cons {l : Line} (clear : l.flaw? = none) (rest : List Line) :
    readable (l :: rest) = l :: readable rest :=
  List.takeWhile_cons_of_pos (by simpa using clear)

theorem readable_prefix (lines : List Line) : readable lines <+: lines := List.takeWhile_prefix _

theorem flaw?_of_mem_readable {lines : List Line} {l : Line} (mem : l ∈ readable lines) : l.flaw? = none := by
  simpa using List.mem_takeWhile_imp mem

theorem readable_eq_self {lines : List Line} (clear : ∀ l ∈ lines, l.flaw? = none) :
    readable lines = lines :=
  List.takeWhile_eq_self_iff.mpr (by simpa using clear)

end Line

namespace Book

/-- The book refuses none of the fills that lines ask for, one after the other. -/
def RefusesNone (b : Book) (lines : List Line) : Prop :=
  ∀ m ∈ b.moments (Line.fills lines), m.refused = false

variable {b : Book}

theorem refusesNone_nil : b.RefusesNone [] := fun _ mem => nomatch mem

theorem refusesNone_append (first second : List Line) :
    b.RefusesNone (first ++ second)
      ↔ b.RefusesNone first ∧ (b.run (Line.fills first)).1.RefusesNone second := by
  simp only [RefusesNone]
  rw [Line.fills_append, moments_append, List.forall_mem_append]

theorem refusesNone_cons {l : Line} {rest : List Line} :
    b.RefusesNone (l :: rest) ↔ b.RefusesNone [l] ∧ (b.run (Line.fills [l])).1.RefusesNone rest :=
  refusesNone_append [l] rest

theorem refusesNone_iff_countP {lines : List Line} :
    b.RefusesNone lines ↔ (b.moments (Line.fills lines)).countP Moment.refused = 0 := by
  rw [List.countP_eq_zero]
  simp only [RefusesNone, Bool.not_eq_true]

/-- The fill on line `k` is the first that a book refuses, and the lines before it can be read. -/
inductive FirstRefusal (b : Book) : List Line → Nat → FillError → Prop where
  | mk (first : List Line) {record : Record} (rest : List Line) {error : FillError}
      (clear : ∀ l ∈ first, l.flaw? = none) (unrefused : b.RefusesNone first)
      (carries : record.report.HasFill)
      (refused : ((b.run (Line.fills first)).1.apply record.report record.side).answer
        = .error (.refused error)) :
      b.FirstRefusal (first ++ .record record :: rest) (first.length + 1) error

theorem FirstRefusal.cons {l : Line} {lines : List Line} {k : Nat} {error : FillError}
    (found : (b.run (Line.fills [l])).1.FirstRefusal lines k error) (clear : l.flaw? = none)
    (here : b.RefusesNone [l]) : b.FirstRefusal (l :: lines) (k + 1) error := by
  cases found with
  | mk first rest clear' unrefused carries refused =>
    refine .mk (l :: first) rest (List.forall_mem_cons.mpr ⟨clear, clear'⟩)
      (refusesNone_cons.mpr ⟨here, unrefused⟩) carries ?_
    rw [← List.singleton_append, Line.fills_append, (b.run_append _ _).1]
    exact refused

end Book

namespace Replay

/-! ## Line by line -/

section

variable {r : Replay} {record : Record}

theorem applyFill_book (strict : Bool) (line : Nat) :
    (r.applyFill strict line record).book = (r.moment record).step.book := by
  simp only [applyFill]
  split <;> rfl

/-- A line that can be read does to the book what it asks for. -/
theorem book_feed {l : Line} (clear : l.flaw? = none) (strict : Bool) (line : Nat) :
    (r.feed strict line l).book = (r.book.run (Line.fills [l])).1 := by
  cases l with
  | unreadable | malformed => cases clear
  | blank => rfl
  | record record =>
    rw [Line.fills_record, feed]
    by_cases carries : record.report.HasFill
    · simp only [carries, if_true]
      exact applyFill_book strict line
    · simp only [carries, if_false]
      rfl

/-- Only a refused fill is met in another way by a strict replay. -/
theorem feed_strict_of_refusesNone {l : Line} (unrefused : r.book.RefusesNone [l]) (line : Nat) :
    r.feed true line l = r.feed false line l := by
  cases l with
  | unreadable | malformed | blank => rfl
  | record record =>
    by_cases carries : record.report.HasFill
    · have here : (r.moment record).refused = false :=
        unrefused (r.moment record) (by simp [Line.fills_record, carries, Book.moments, moment])
      have answer : ∀ error, (r.book.apply record.report record.side).answer ≠ .error (.refused error) := by
        intro error refused
        have told : (r.moment record).step.answer = .outcome (.error (.refused error)) :=
          congrArg Answer.outcome refused
        rw [Moment.refused, told] at here
        cases here
      simp only [feed, carries, if_true, applyFill]
      split
      next => rfl
      next error refused => exact absurd refused (answer error)
      next => rfl
    · simp only [feed, carries, if_false]

/-- A refused fill ends a strict replay, which has done by then what any other has. -/
theorem feed_strict_of_refused (carries : record.report.HasFill) {error : FillError}
    (refused : (r.book.apply record.report record.side).answer = .error (.refused error)) (line : Nat) :
    r.feed true line (.record record)
      = { r.feed false line (.record record) with stop := some ⟨line, .refused error⟩ } := by
  simp only [feed, carries, if_true, applyFill, refused]
  rfl

end

/-! ## All lines -/

theorem feedAll_strict_of_refused {r : Replay} {record : Record} (carries : record.report.HasFill)
    {error : FillError}
    (refused : (r.book.apply record.report record.side).answer = .error (.refused error)) (line : Nat)
    (rest : List Line) :
    r.feedAll true line (.record record :: rest)
      = { r.feed false line (.record record) with stop := some ⟨line, .refused error⟩ } := by
  rw [feedAll, feed_strict_of_refused carries refused]
  rfl

theorem readable_of_ended {r : Replay} (sound : r.book.Sound) (going : r.stop = none) {strict : Bool}
    (line : Nat) {lines : List Line} (ended : (r.feedAll strict line lines).stop = none) :
    ∀ l ∈ lines, l.flaw? = none := by
  obtain ⟨read, rest, parts, clear, _, ends⟩ := exists_course sound going strict line lines
  rw [ended] at ends
  cases ends
  rwa [parts, List.append_nil]

theorem feedAll_singleton (strict : Bool) (line : Nat) (r : Replay) (l : Line) :
    r.feedAll strict line [l] = r.feed strict line l := by
  simp only [feedAll, ite_self]

/-- Without a refused fill before the first line that cannot be read, a strict replay is like any other. -/
theorem feedAll_strict_of_refusesNone {r : Replay} {lines : List Line}
    (unrefused : r.book.RefusesNone (Line.readable lines)) (line : Nat) :
    r.feedAll true line lines = r.feedAll false line lines := by
  induction lines generalizing r line with
  | nil => rfl
  | cons l rest ih =>
    rw [feedAll, feedAll]
    cases flaw : l.flaw? with
    | some cause => simp [feed_of_flaw flaw]
    | none =>
      rw [Line.readable_cons flaw, Book.refusesNone_cons] at unrefused
      rw [feed_strict_of_refusesNone unrefused.1]
      -- Where the line leads both replays, none of the fills that follow are refused.
      have later : (r.feed false line l).book.RefusesNone (Line.readable rest) := by
        rw [book_feed flaw]
        exact unrefused.2
      rw [ih later]

end Replay

/-! ## The first refused fill -/

theorem Record.exists_error {b : Book} {record : Record}
    (refused : (⟨b, record.command⟩ : Moment).refused = true) :
    ∃ error, (b.apply record.report record.side).answer = .error (.refused error) := by
  have refuses : (Answer.outcome (b.apply record.report record.side).answer).refuses = true := refused
  cases answer : (b.apply record.report record.side).answer with
  | ok outcome => simp [answer, Answer.refuses] at refuses
  | error failure =>
    cases failure with
    | refused error => exact ⟨error, rfl⟩
    | fault fault => simp [answer, Answer.refuses] at refuses

namespace Book

/-- Where some fill is refused, one of the refused fills is the first. -/
theorem exists_firstRefusal {b : Book} {lines : List Line} (clear : ∀ l ∈ lines, l.flaw? = none)
    (refuses : ¬b.RefusesNone lines) (rest : List Line) :
    ∃ k error, b.FirstRefusal (lines ++ rest) k error := by
  induction lines generalizing b with
  | nil => exact absurd refusesNone_nil refuses
  | cons l lines ih =>
    rw [List.forall_mem_cons] at clear
    by_cases here : b.RefusesNone [l]
    · have later : ¬(b.run (Line.fills [l])).1.RefusesNone lines := fun none =>
        refuses (refusesNone_cons.mpr ⟨here, none⟩)
      obtain ⟨k, error, found⟩ := ih clear.2 later
      exact ⟨k + 1, error, found.cons clear.1 here⟩
    · simp only [RefusesNone, not_forall, Bool.not_eq_false] at here
      obtain ⟨m, mem, refused⟩ := here
      -- Only a record with a fill asks a book for anything.
      cases l with
      | unreadable | malformed | blank => cases mem
      | record record =>
        rw [Line.fills_record] at mem
        split at mem
        next carries =>
          obtain rfl : m = ⟨b, record.command⟩ := List.mem_singleton.mp mem
          obtain ⟨error, answer⟩ := Record.exists_error refused
          exact ⟨1, error, .mk [] _ (by simp) refusesNone_nil carries answer⟩
        next => cases mem

section

variable {b : Book} (sound : b.Sound)

include sound

/-- A replay that is not strict counts the fills that are refused. -/
theorem replayLines_of_clear {lines : List Line} (clear : ∀ l ∈ lines, l.flaw? = none) :
    (b.replayLines false lines).stop = none ∧
      (b.replayLines false lines).book = (b.run (Line.fills lines)).1 ∧
      (b.replayLines false lines).stats.rejected
        = (b.moments (Line.fills lines)).countP Moment.refused := by
  obtain ⟨course, stop⟩ := Replay.course_of_readable (r := { book := b }) sound rfl 1 clear
  exact ⟨stop, course.book, course.rejected.trans (Nat.zero_add _)⟩

/-- At the first refused fill a strict replay stands where any other comes to. -/
theorem FirstRefusal.strict_eq {lines : List Line} {k : Nat} {error : FillError}
    (found : b.FirstRefusal lines k error) :
    let reached := b.replayLines false (lines.take k)
    reached.stop = none ∧ reached.stats.rejected = 1 ∧
      (∀ j < k, (b.replayLines false (lines.take j)).stats.rejected = 0) ∧
      b.replayLines true lines = { reached with stop := some ⟨k, .refused error⟩ } := by
  intro reached
  cases found with
  | @mk first record rest error clear unrefused carries refused =>
    have within : reached = b.replayLines false (first ++ [.record record]) := by
      simp only [reached]
      rw [List.take_length_add_append]
      rfl
    obtain ⟨mid_stop, mid_book, _⟩ := replayLines_of_clear sound clear
    have clear' : ∀ l ∈ first ++ [.record record], l.flaw? = none := by
      rw [List.forall_mem_append, List.forall_mem_singleton]
      exact ⟨clear, rfl⟩
    obtain ⟨stop, _, rejected⟩ := replayLines_of_clear sound clear'
    rw [← within] at stop rejected
    refine ⟨stop, ?_, fun j before => ?_, ?_⟩
    · have last : (⟨(b.run (Line.fills first)).1, record.command⟩ : Moment).refused = true := by
        rw [Moment.refused, Moment.step_mk]
        change (Answer.outcome (Book.apply ..).answer).refuses = true
        rw [refused]
        rfl
      rw [rejected, Line.fills_append, moments_append, List.countP_append, Line.fills_record, if_pos carries,
        refusesNone_iff_countP.mp unrefused]
      simp [moments, last]
    · have part : (first ++ .record record :: rest).take j = first.take j :=
        List.take_append_of_le_length (by omega)
      have early : b.RefusesNone (first.take j) := by
        rw [← List.take_append_drop j first, refusesNone_append] at unrefused
        exact unrefused.1
      rw [part, (replayLines_of_clear sound fun l mem => clear l (List.mem_of_mem_take mem)).2.2]
      exact refusesNone_iff_countP.mp early
    · rw [within]
      simp only [replayLines] at mid_stop mid_book ⊢
      have same : Replay.feedAll true 1 { book := b } first = Replay.feedAll false 1 { book := b } first :=
        Replay.feedAll_strict_of_refusesNone (by rwa [Line.readable_eq_self clear]) 1
      have ends := Replay.feedAll_strict_of_refused carries (mid_book ▸ refused) (1 + first.length) rest
      rw [Replay.feedAll_append rfl, Replay.feedAll_append rfl, same, if_neg (by simp [mid_stop]),
        if_neg (by simp [mid_stop]), Replay.feedAll_singleton, ends, Nat.add_comm]

end

/-- Up to the first refused fill, a strict replay goes as any other does.  There it ends, with the error
of that fill and the number of its line, where the other is right after that line. -/
theorem replay_strict (settings : Settings) (before : List Command) (journal : List UInt8) :
    let b := ((ofSettings settings).value.run before).1
    let lines := journalLines journal
    let strict := b.replay true journal
    let other := b.replay false journal
    (b.RefusesNone (Line.readable lines) → strict = other) ∧
      (¬b.RefusesNone (Line.readable lines) → ∃ k error, b.FirstRefusal lines k error) ∧
      (∀ k error, b.FirstRefusal lines k error →
        let reached := b.replayLines false (lines.take k)
        reached.stop = none ∧ reached.stats.rejected = 1 ∧
          (∀ j < k, (b.replayLines false (lines.take j)).stats.rejected = 0) ∧
          strict = { reached with stop := some ⟨k, .refused error⟩ } ∧
          strict.stop.map Stop.messages
            = some ["Replay stopped at line " ++ toString k, error.message]) ∧
      (strict.stop = none ↔ other.stop = none ∧ other.stats.rejected = 0) ∧
      (strict.stop = none → strict = other) := by
  intro b lines strict other
  have sound : b.Sound := (sound_of_empty rfl).run before
  have same : b.RefusesNone (Line.readable lines) → strict = other := fun unrefused =>
    Replay.feedAll_strict_of_refusesNone unrefused 1
  have first : ¬b.RefusesNone (Line.readable lines) → ∃ k error, b.FirstRefusal lines k error := by
    intro refuses
    obtain ⟨rest, parts⟩ := Line.readable_prefix lines
    obtain ⟨k, error, found⟩ := exists_firstRefusal (fun _ => Line.flaw?_of_mem_readable) refuses rest
    exact ⟨k, error, parts ▸ found⟩
  have parted : ∀ k error, b.FirstRefusal lines k error → strict.stop = some ⟨k, .refused error⟩ := by
    intro k error found
    exact congrArg Replay.stop (found.strict_eq sound).2.2.2
  have unended : strict.stop = none → b.RefusesNone (Line.readable lines) := by
    intro going
    by_contra refuses
    obtain ⟨k, error, found⟩ := first refuses
    rw [parted k error found] at going
    cases going
  -- What the other replay counts tells of refusals only where it comes to its end.
  have rejected_iff : other.stop = none →
      (other.stats.rejected = 0 ↔ b.RefusesNone (Line.readable lines)) := by
    intro going
    have clear := Replay.readable_of_ended (r := { book := b }) sound rfl 1 going
    rw [Line.readable_eq_self clear, refusesNone_iff_countP, ← (replayLines_of_clear sound clear).2.2]
    rfl
  refine ⟨same, first, fun k error found => ?_, ⟨fun going => ?_, fun ⟨going, unrejected⟩ => ?_⟩,
    fun going => same (unended going)⟩
  · obtain ⟨stop, rejected, early, eq⟩ := found.strict_eq sound
    refine ⟨stop, rejected, early, eq, ?_⟩
    rw [parted k error found]
    rfl
  · have on : other.stop = none := same (unended going) ▸ going
    exact ⟨on, (rejected_iff on).mpr (unended going)⟩
  · rw [same ((rejected_iff going).mp unrejected)]
    exact going

/-- A fill at no price is the first that is refused, whatever comes after it. -/
example (rest : List Line) :
    let unpriced : Record :=
      ⟨.buy, { symbol := "X", lastFillQuantity := 1, lastFillPrice := 0, status := .filled }⟩
    (ofSettings {}).value.FirstRefusal (.blank :: .record unpriced :: rest) 2 (.invalidFill 1 0) := by
  refine .mk [.blank] rest (by decide) (fun _ mem => nomatch mem) (by decide) ?_
  decide +kernel

end Book

end CostBasis
