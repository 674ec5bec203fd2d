import CostBasis.Replay.Basic
import CostBasis.Proofs.Book.Isolation
import CostBasis.Proofs.Book.Refusals
import CostBasis.Proofs.Book.Deliveries
import CostBasis.Proofs.Text

/-!
# The course of a replay

A replay does what its records say, one after the other.  As far as its lines can be read it applies
exactly the records that carry a fill, counts what became of each and remembers the last price of every
symbol.  The first line that cannot be read or holds no record ends it where the lines before have led.
-/

namespace CostBasis

/-! ## Sound books -/

theorem Position.Sound.serve {p : Position} (sound : p.Sound) (request : Request) :
    (p.serve request).Sound := by
  obtain ⟨s', stepped, _, sound'⟩ := Session.exists_turn (s := { position := p }) sound request
  rwa [Session.position_of_step stepped] at sound'

namespace Book

def Sound (b : Book) : Prop := ∀ symbol p, b.find? symbol = some p → p.Sound

theorem sound_of_empty {b : Book} (empty : b.positions = []) : b.Sound := fun symbol p found => by
  simp [find?, empty] at found

theorem Sound.positionOrNew {b : Book} (sound : b.Sound) (symbol : String) :
    (b.positionOrNew symbol).Sound := by
  simp only [Book.positionOrNew]
  cases found : b.find? symbol with
  | none => exact .new symbol b.defaultMethod
  | some p => exact sound symbol p found

theorem Sound.served {b : Book} (sound : b.Sound) (symbol : String) (c : Command) :
    (b.served symbol c).Sound := by
  simp only [Book.served]
  cases c.request? with
  | none => exact sound.positionOrNew symbol
  | some request => exact (sound.positionOrNew symbol).serve request

theorem Sound.step {b : Book} (sound : b.Sound) (c : Command) : (b.step c).book.Sound := by
  intro symbol p found
  cases named : c.symbol? with
  | some other =>
    rw [find?_step_of_symbol named] at found
    split at found
    next =>
      cases found
      exact sound.served other c
    next => exact sound symbol p found
  | none =>
    rw [find?_step_of_unnamed named] at found
    split at found
    next => cases found
    next => exact sound symbol p found

theorem Sound.run {b : Book} (sound : b.Sound) (commands : List Command) :
    (b.run commands).1.Sound := by
  induction commands generalizing b with
  | nil => exact sound
  | cons c rest ih => exact ih (sound.step c)

end Book

/-- A fill of a sound book is accepted or refused. -/
theorem Moment.accepted_or_refused {m : Moment} (sound : m.before.Sound)
    (told : m.command.notified?.isSome = true) :
    (m.accepted = true ∧ m.refused = false ∧ ∃ outcome, m.step.answer = .outcome (.ok outcome)) ∨
      (m.accepted = false ∧ m.refused = true ∧
        ∃ error, m.step.answer = .outcome (.error (.refused error))) := by
  obtain ⟨b, c⟩ := m
  obtain ⟨⟨symbol, fill⟩, told⟩ := Option.isSome_iff_exists.mp told
  simp only [accepted, refused, step_mk]
  cases filled : (b.positionOrNew symbol).apply fill with
  | ok result =>
    have answer := (Book.step_of_notified_ok told filled).1
    exact .inl ⟨by rw [told, answer], by rw [answer]; rfl, result.2, answer⟩
  | error failure =>
    have answer := (Book.step_of_notified_error told filled).1
    cases failure with
    | refused error => exact .inr ⟨by rw [told, answer], by rw [answer]; rfl, error, answer⟩
    | fault fault => exact absurd filled ((sound.positionOrNew symbol).apply_ne_fault fault)

def Record.command (r : Record) : Command := .apply r.report r.side

namespace Line

def record? : Line → Option Record
  | .record r => some r
  | _ => none

/-- Why a line ends a replay before anything is applied. -/
def flaw? : Line → Option StopCause
  | .unreadable => some .unreadable
  | .malformed => some .malformed
  | _ => none

/-- The command that a line gives to a book: to apply the fill of its record, if it carries one. -/
def fill? (l : Line) : Option Command :=
  (l.record?.filter fun r => r.report.HasFill).map Record.command

def fills (lines : List Line) : List Command := lines.filterMap fill?

@[simp] theorem fills_append (first second : List Line) :
    fills (first ++ second) = fills first ++ fills second :=
  List.filterMap_append

@[simp] theorem fills_blank : fills [.blank] = [] := rfl

theorem fills_record (r : Record) :
    fills [.record r] = if r.report.HasFill then [r.command] else [] := by
  by_cases carries : r.report.HasFill <;> simp [fills, fill?, record?, carries]

theorem notified?_of_mem_fills {lines : List Line} {c : Command} (mem : c ∈ fills lines) :
    c.notified?.isSome = true := by
  obtain ⟨l, _, given⟩ := List.mem_filterMap.mp mem
  obtain ⟨record, _, rfl⟩ := Option.map_eq_some_iff.mp given
  rfl

end Line

namespace Moment

/-- The price of an accepted fill of a symbol. -/
def tradedAt? (symbol : String) (m : Moment) : Option Decimal :=
  match m.command.notified? with
  | some (traded, fill) => if m.accepted ∧ symbol = traded then some fill.price else none
  | none => none

theorem tradedAt?_of_told {m : Moment} {traded : String} {fill : Fill}
    (told : m.command.notified? = some (traded, fill)) (symbol : String) :
    m.tradedAt? symbol = if m.accepted ∧ symbol = traded then some fill.price else none := by
  simp only [tradedAt?, told]

end Moment

/-- The price of the last accepted fill of a symbol. -/
def lastPrice? (symbol : String) (ms : List Moment) : Option Decimal :=
  (ms.filterMap (Moment.tradedAt? symbol)).getLast?

@[simp] theorem lastPrice?_nil (symbol : String) : lastPrice? symbol [] = none := rfl

@[simp] theorem lastPrice?_singleton (symbol : String) (m : Moment) :
    lastPrice? symbol [m] = m.tradedAt? symbol := by
  cases traded : m.tradedAt? symbol <;> simp [lastPrice?, traded]

theorem lastPrice?_append (symbol : String) (first second : List Moment) :
    lastPrice? symbol (first ++ second) = (lastPrice? symbol second).or (lastPrice? symbol first) := by
  simp [lastPrice?]

@[simp] theorem Prices.get?_insert (p : Prices) (symbol other : String) (price : Decimal) :
    (p.insert symbol price).get? other = if other = symbol then some price else p.get? other := by
  simp only [get?, insert, List.lookup_cons]
  by_cases here : other = symbol
  · simp [here]
  · rw [beq_false_of_ne here, if_neg here]
    induction p.entries with
    | nil => rfl
    | cons entry rest ih =>
      obtain ⟨key, value⟩ := entry
      by_cases removed : key = symbol
      · have skipped : (other == key) = false := beq_false_of_ne (removed ▸ here)
        simpa [removed, List.lookup_cons, skipped, beq_false_of_ne here] using ih
      · cases found : other == key <;> simp [removed, List.lookup_cons, found, ih]

namespace Replay

/-! ## Lines that can be read -/

/-- Where lines that can all be read lead a replay. -/
structure Course (r : Replay) (lines : List Line) (r' : Replay) : Prop where
  book : r'.book = (r.book.run (Line.fills lines)).1
  records : r'.stats.records = r.stats.records + lines.countP (· ≠ .blank)
  skipped : r'.stats.skipped = r.stats.skipped
    + (lines.filterMap Line.record?).countP fun record => ¬record.report.HasFill
  applied : r'.stats.applied
    = r.stats.applied + (r.book.moments (Line.fills lines)).countP Moment.accepted
  rejected : r'.stats.rejected
    = r.stats.rejected + (r.book.moments (Line.fills lines)).countP Moment.refused
  lastPrices : ∀ symbol, r'.lastPrices.get? symbol
    = (lastPrice? symbol (r.book.moments (Line.fills lines))).or (r.lastPrices.get? symbol)

namespace Course

theorem of_stop (r : Replay) (stop : Option Stop) : Course r [] { r with stop } := by
  constructor <;> simp [Line.fills, Book.run, Book.moments]

theorem refl (r : Replay) : Course r [] r := of_stop r r.stop

theorem trans {r r' r'' : Replay} {first second : List Line} (begun : Course r first r')
    (gone_on : Course r' second r'') : Course r (first ++ second) r'' where
  book := by rw [gone_on.book, begun.book, Line.fills_append, (Book.run_append ..).1]
  records := by rw [gone_on.records, begun.records, List.countP_append, Nat.add_assoc]
  skipped := by
    rw [gone_on.skipped, begun.skipped, List.filterMap_append, List.countP_append, Nat.add_assoc]
  applied := by
    rw [gone_on.applied, begun.applied, begun.book, Line.fills_append, Book.moments_append,
      List.countP_append, Nat.add_assoc]
  rejected := by
    rw [gone_on.rejected, begun.rejected, begun.book, Line.fills_append, Book.moments_append,
      List.countP_append, Nat.add_assoc]
  lastPrices symbol := by
    rw [gone_on.lastPrices, begun.lastPrices, begun.book, Line.fills_append, Book.moments_append,
      lastPrice?_append, Option.or_assoc]

theorem sound {r r' : Replay} {lines : List Line} (course : Course r lines r') (sound : r.book.Sound) :
    r'.book.Sound := by
  rw [course.book]
  exact sound.run _

end Course

theorem Course.blank (r : Replay) : Course r [.blank] r := by
  constructor <;> simp [Line.record?, Book.run, Book.moments]

/-- The moment at which a replay comes to a record with a fill. -/
def moment (r : Replay) (record : Record) : Moment := ⟨r.book, record.command⟩

section

variable {r : Replay} {record : Record}

theorem Course.of_skipped (carries : ¬record.report.HasFill) {r' : Replay} (book : r'.book = r.book)
    (stats : r'.stats = { r.stats with records := r.stats.records + 1, skipped := r.stats.skipped + 1 })
    (lastPrices : r'.lastPrices = r.lastPrices) : Course r [.record record] r' := by
  have none : Line.fills [.record record] = [] := by simp [Line.fills_record, carries]
  constructor <;>
    simp [none, book, stats, lastPrices, carries, Line.record?, Book.run, Book.moments]

theorem Course.of_fill (carries : record.report.HasFill) {r' : Replay}
    (book : r'.book = (r.moment record).step.book)
    (stats : r'.stats = { r.stats with
      records := r.stats.records + 1
      applied := r.stats.applied + (r.moment record).accepted.toNat
      rejected := r.stats.rejected + (r.moment record).refused.toNat })
    (lastPrices : ∀ symbol, r'.lastPrices.get? symbol
      = ((r.moment record).tradedAt? symbol).or (r.lastPrices.get? symbol)) :
    Course r [.record record] r' := by
  have one : Line.fills [.record record] = [record.command] := by simp [Line.fills_record, carries]
  have moments : r.book.moments [record.command] = [r.moment record] := rfl
  constructor
  · rw [one, book]
    rfl
  · simp [stats]
  · simp [stats, Line.record?, carries]
  · rw [stats, one, moments, Book.countP_cons_toNat]
    rfl
  · rw [stats, one, moments, Book.countP_cons_toNat]
    rfl
  · intro symbol
    rw [lastPrices, one, moments, lastPrice?_singleton]

theorem applyFill_of_ok {outcome : FillOutcome}
    (answer : (r.moment record).step.answer = .outcome (.ok outcome)) (strict : Bool) (line : Nat) :
    let r' := r.applyFill strict line record
    r'.book = (r.moment record).step.book ∧
      r'.stats = { r.stats with applied := r.stats.applied + 1 } ∧
      r'.lastPrices = r.lastPrices.insert record.report.symbol record.report.lastFillPrice ∧
      r'.stop = r.stop := by
  have applied : (r.book.apply record.report record.side).answer = .ok outcome := Answer.outcome.inj answer
  simp only [applyFill, applied]
  exact ⟨rfl, rfl, rfl, rfl⟩

theorem applyFill_of_refused {error : FillError}
    (answer : (r.moment record).step.answer = .outcome (.error (.refused error))) (strict : Bool)
    (line : Nat) :
    let r' := r.applyFill strict line record
    r'.book = (r.moment record).step.book ∧
      r'.stats = { r.stats with rejected := r.stats.rejected + 1 } ∧
      r'.lastPrices = r.lastPrices ∧
      r'.stop = if strict then some ⟨line, .refused error⟩ else none := by
  have refused : (r.book.apply record.report record.side).answer = .error (.refused error) :=
    Answer.outcome.inj answer
  simp only [applyFill, refused]
  exact ⟨rfl, rfl, rfl, rfl⟩

theorem feed_of_skipped (carries : ¬record.report.HasFill) (strict : Bool) (line : Nat) :
    let r' := r.feed strict line (.record record)
    r'.book = r.book ∧
      r'.stats = { r.stats with records := r.stats.records + 1, skipped := r.stats.skipped + 1 } ∧
      r'.lastPrices = r.lastPrices ∧ r'.stop = r.stop := by
  simp only [feed, carries, if_false]
  exact ⟨rfl, rfl, rfl, rfl⟩

/-- A fill is accepted, or it is refused and ends a strict replay. -/
theorem course_feed_of_fill (sound : r.book.Sound) (going : r.stop = none)
    (carries : record.report.HasFill) (strict : Bool) (line : Nat) :
    let r' := r.feed strict line (.record record)
    Course r [.record record] r' ∧
      (r'.stop = none ∨ strict = true ∧ ∃ error, r'.stop = some ⟨line, .refused error⟩) := by
  intro r'
  have told : (r.moment record).command.notified? = some (record.report.symbol,
    ⟨record.side, record.report.lastFillQuantity, record.report.lastFillPrice⟩) := rfl
  have traded := Moment.tradedAt?_of_told told
  let counted := { r with stats := { r.stats with records := r.stats.records + 1 } }
  have fed : r' = counted.applyFill strict line record := by
    simp only [r', feed, carries, if_true, counted]
  rw [fed]
  obtain ⟨accepted, unrefused, outcome, answer⟩ | ⟨unaccepted, refused, error, answer⟩ :=
    Moment.accepted_or_refused (m := r.moment record) sound rfl
  · obtain ⟨book, stats, lastPrices, stop⟩ := applyFill_of_ok (r := counted) answer strict line
    refine ⟨.of_fill carries book ?_ fun symbol => ?_, .inl (stop.trans going)⟩
    · rw [stats, accepted, unrefused]
      rfl
    · rw [lastPrices, Prices.get?_insert, traded, accepted]
      by_cases here : symbol = record.report.symbol <;> simp [here, counted]
  · -- A refused fill leaves no price, whatever its symbol.
    obtain ⟨book, stats, lastPrices, stop⟩ := applyFill_of_refused (r := counted) answer strict line
    refine ⟨.of_fill carries book ?_ fun symbol => ?_, ?_⟩
    · rw [stats, unaccepted, refused]
      rfl
    · simp [lastPrices, traded, unaccepted, counted]
    · cases strict with
      | true => exact .inr ⟨rfl, error, stop⟩
      | false => exact .inl stop

/-- A line that can be read goes on with a replay, unless its fill is refused and the replay strict. -/
theorem course_feed (sound : r.book.Sound) (going : r.stop = none) {l : Line} (readable : l.flaw? = none)
    (strict : Bool) (line : Nat) :
    let r' := r.feed strict line l
    Course r [l] r' ∧
      (r'.stop = none ∨ strict = true ∧ ∃ error, r'.stop = some ⟨line, .refused error⟩) := by
  cases l with
  | unreadable | malformed => cases readable
  | blank => exact ⟨.blank r, .inl going⟩
  | record record =>
    by_cases carries : record.report.HasFill
    · exact course_feed_of_fill sound going carries strict line
    · obtain ⟨book, stats, lastPrices, stop⟩ := feed_of_skipped (r := r) carries strict line
      exact ⟨.of_skipped carries book stats lastPrices, .inl (stop.trans going)⟩

theorem feed_of_flaw {l : Line} {cause : StopCause} (flaw : l.flaw? = some cause) (strict : Bool)
    (line : Nat) : r.feed strict line l = { r with stop := some ⟨line, cause⟩ } := by
  cases l with
  | unreadable | malformed =>
    cases flaw
    rfl
  | _ => cases flaw

end

theorem Course.sequence {r r' : Replay} {lines : List Line} (course : Course r lines r') :
    r'.book.publisher.sequence + r.stats.applied = r.book.publisher.sequence + r'.stats.applied := by
  rw [course.book, Book.sequence_run, course.applied]
  omega

/-! ## All lines -/

/-- How a replay ends after the lines that it has read, the first of which has the number `line`. -/
inductive Ends (strict : Bool) (line : Nat) (read : List Line) : List Line → Option Stop → Prop where
  | complete : Ends strict line read [] none
  | flawed {l : Line} {rest : List Line} {cause : StopCause} (flaw : l.flaw? = some cause) :
      Ends strict line read (l :: rest) (some ⟨line + read.length, cause⟩)
  | refused {rest : List Line} {last : Nat} {error : FillError} (asked : strict = true)
      (reached : last + 1 = line + read.length) :
      Ends strict line read rest (some ⟨last, .refused error⟩)

theorem Ends.cons {strict : Bool} {line : Nat} {read rest : List Line} {stop : Option Stop}
    (ends : Ends strict (line + 1) read rest stop) (l : Line) : Ends strict line (l :: read) rest stop := by
  have further : line + 1 + read.length = line + (l :: read).length := by
    rw [List.length_cons]
    omega
  cases ends with
  | complete => exact .complete
  | flawed flaw =>
    rw [further]
    exact .flawed flaw
  | refused asked reached => exact .refused asked (reached.trans further)

theorem feedAll_append {r : Replay} (going : r.stop = none) (strict : Bool) (line : Nat)
    (first second : List Line) :
    r.feedAll strict line (first ++ second)
      = if (r.feedAll strict line first).stop.isSome then r.feedAll strict line first
        else (r.feedAll strict line first).feedAll strict (line + first.length) second := by
  induction first generalizing r line with
  | nil => simp [feedAll, going]
  | cons l rest ih =>
    simp only [List.cons_append, feedAll]
    split
    next => rfl
    next on =>
      rw [ih (Option.not_isSome_iff_eq_none.mp on), List.length_cons, Nat.add_assoc, Nat.add_comm 1]

/-- A replay reads its lines up to where it ends. -/
theorem exists_course {r : Replay} (sound : r.book.Sound) (going : r.stop = none) (strict : Bool)
    (line : Nat) (lines : List Line) :
    ∃ read rest, lines = read ++ rest ∧ (∀ l ∈ read, l.flaw? = none) ∧
      Course r read (r.feedAll strict line lines) ∧
      Ends strict line read rest (r.feedAll strict line lines).stop := by
  -- Every line that is read leaves a sound book, which is what keeps fills from faults.
  induction lines generalizing r line with
  | nil => exact ⟨[], [], rfl, by simp, .refl r, going ▸ .complete⟩
  | cons l rest ih =>
    rw [feedAll]
    cases flaw : l.flaw? with
    | some cause =>
      rw [feed_of_flaw flaw]
      exact ⟨[], l :: rest, rfl, by simp, .of_stop r _, .flawed flaw⟩
    | none =>
      obtain ⟨course, going | ⟨asked, error, stop⟩⟩ := course_feed sound going flaw strict line
      · obtain ⟨read, rest, rfl, readable, gone_on, ends⟩ := ih (course.sound sound) going (line + 1)
        rw [if_neg (by simp [going])]
        exact ⟨l :: read, rest, rfl, by simpa [flaw] using readable, course.trans gone_on, ends.cons l⟩
      · rw [if_pos (by simp [stop]), stop]
        exact ⟨[l], rest, rfl, by simp [flaw], course, .refused asked rfl⟩

section

variable {r : Replay} (sound : r.book.Sound) (going : r.stop = none) (line : Nat)

include sound going

theorem course_of_readable {lines : List Line} (readable : ∀ l ∈ lines, l.flaw? = none) :
    Course r lines (r.feedAll false line lines) ∧ (r.feedAll false line lines).stop = none := by
  obtain ⟨read, rest, parts, _, course, ends⟩ := exists_course sound going false line lines
  generalize r.feedAll false line lines = r' at course ends
  generalize stopped : r'.stop = stop at ends
  cases ends with
  | complete =>
    rw [parts, List.append_nil]
    exact ⟨course, rfl⟩
  | flawed flaw =>
    rw [readable _ (parts ▸ List.mem_append_right read List.mem_cons_self)] at flaw
    cases flaw
  | refused asked => cases asked

/-- A replay that comes to its end, strict or not, has read every line. -/
theorem course_of_ended {strict : Bool} {lines : List Line}
    (ended : (r.feedAll strict line lines).stop = none) : Course r lines (r.feedAll strict line lines) := by
  obtain ⟨read, rest, parts, _, course, ends⟩ := exists_course sound going strict line lines
  rw [ended] at ends
  cases ends
  rwa [← List.append_nil read, ← parts] at course

end

end Replay

namespace Book

open Replay

end Book

end CostBasis
