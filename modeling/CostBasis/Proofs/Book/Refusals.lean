import CostBasis.Proofs.Book.Channels

/-!
# Refused fills

A refused fill does to a book what asking for the position of its symbol does, and no one is told of it.
What may come of it is a position that no fill has changed.  Where it is missing it would be opened just
so when it is asked for: a run goes on in the same way without its refused fills.
-/

namespace CostBasis

def Answer.refuses : Answer → Bool
  | .outcome (.error (.refused _)) => true
  | _ => false

/-- Whether a fill was asked for and refused, one that is told of or not. -/
def Moment.refused (m : Moment) : Bool := m.step.answer.refuses

def Command.isQuery : Command → Bool
  | .query _ => true
  | _ => false

namespace Book

/-! ## One refusal -/

theorem refuses_of_unnamed {b : Book} {c : Command} (unnamed : c.symbol? = none) :
    (b.step c).answer.refuses = false := by
  cases c with
  | unsubscribe | receive | disconnect =>
    simp only [step]
    split <;> rfl
  | query query => cases query <;> rfl
  | clear | setDefaultMethod | subscribe | subscribeOnly | openChannel => rfl
  | _ => cases unnamed

theorem step_of_refuses {b : Book} {c : Command} (refused : (b.step c).answer.refuses = true) :
    ∃ symbol, c.symbol? = some symbol ∧ (b.step c).book = (b.ensure symbol).value ∧
      (b.step c).notices = [] := by
  cases named : c.symbol? with
  | none => simp [refuses_of_unnamed named] at refused
  | some symbol =>
    refine ⟨symbol, rfl, ?_⟩
    cases told : c.notified? with
    | some asked =>
      obtain ⟨_, fill⟩ := asked
      cases named.symm.trans (Command.of_notified told).1
      cases filled : (b.positionOrNew symbol).apply fill with
      | ok result =>
        rw [(step_of_notified_ok told filled).1] at refused
        cases refused
      | error failure => exact (step_of_notified_error told filled).2
    | none =>
      obtain ⟨answer, book, notices⟩ := step_of_quiet (b := b) named told
      refine ⟨book.trans (congrArg b.put ?_), notices⟩
      rw [answer] at refused
      simp only [served]
      cases asked : c.request? with
      | none => rfl
      | some request =>
        rw [asked] at refused
        cases request with
        | setMethod method => cases refused
        | fill fill =>
          simp only [Option.elim_some, Position.reply, Position.serve] at refused ⊢
          cases filled : (b.positionOrNew symbol).apply fill with
          | ok result =>
            rw [filled] at refused
            cases refused
          | error failure => rfl

theorem update?_of_refuses {b : Book} {c : Command} (refused : (b.step c).answer.refuses = true) :
    (⟨b, c⟩ : Moment).update? = none := by
  refine Moment.update?_of_not_accepted ?_
  simp only [Moment.accepted, Moment.step_mk]
  split
  next _ answer =>
    rw [answer] at refused
    cases refused
  next => rfl

/-! ## Books that are alike -/

/-- A second book that lacks no more than positions as they are opened. -/
structure Alike (b b' : Book) : Prop where
  rest : b' = { b with positions := b'.positions }
  find? : ∀ symbol, b'.find? symbol = b.find? symbol ∨
    b'.find? symbol = none ∧ b.find? symbol = some (.new symbol b.defaultMethod)

theorem Alike.refl (b : Book) : b.Alike b := ⟨rfl, fun _ => .inl rfl⟩

/-- A command that names no symbol looks at the positions only to answer a query. -/
theorem step_of_positions (b : Book) (positions : List Position) {c : Command}
    (unnamed : c.symbol? = none) :
    let s := ({ b with positions } : Book).step c
    (c.isQuery = false → s.answer = (b.step c).answer) ∧ s.notices = (b.step c).notices ∧
      s.book = { (b.step c).book with positions := s.book.positions } := by
  cases c with
  | unsubscribe | receive | disconnect =>
    simp only [step]
    split <;> exact ⟨fun _ => rfl, rfl, rfl⟩
  | query query => exact ⟨fun unasked => (by cases unasked), rfl, rfl⟩
  | clear | setDefaultMethod | subscribe | subscribeOnly | openChannel =>
    exact ⟨fun _ => rfl, rfl, rfl⟩
  | _ => cases unnamed

namespace Alike

variable {b b' : Book} (alike : b.Alike b')

include alike

theorem defaultMethod : b'.defaultMethod = b.defaultMethod := by rw [alike.rest]

theorem positionOrNew (symbol : String) : b'.positionOrNew symbol = b.positionOrNew symbol := by
  simp only [Book.positionOrNew, alike.defaultMethod]
  obtain same | ⟨lacking, fresh⟩ := alike.find? symbol
  · rw [same]
  · simp [lacking, fresh]

theorem served (symbol : String) (c : Command) : b'.served symbol c = b.served symbol c := by
  simp only [Book.served, alike.positionOrNew]

theorem find?_of_tradeCount {symbol : String} {p : Position} (found : b.find? symbol = some p)
    (traded : 0 < p.tradeCount) : b'.find? symbol = some p := by
  obtain same | ⟨_, fresh⟩ := alike.find? symbol
  · rw [same, found]
  · cases found.symm.trans fresh
    cases traded

theorem step_of_symbol {c : Command} {symbol : String} (named : c.symbol? = some symbol) :
    (b'.step c).answer = (b.step c).answer ∧ (b'.step c).notices = (b.step c).notices ∧
      (b'.step c).book = { (b.step c).book with positions := (b'.step c).book.positions } := by
  have position := alike.positionOrNew symbol
  have served := alike.served symbol c
  obtain ⟨positions, rfl⟩ : ∃ positions, b' = { b with positions } := ⟨_, alike.rest⟩
  refine ⟨by rw [(Book.step_of_symbol named).1, (Book.step_of_symbol named).1, position], ?_⟩
  cases told : c.notified? with
  | none =>
    obtain ⟨_, book, notices⟩ := step_of_quiet (b := b) named told
    obtain ⟨_, book', notices'⟩ := step_of_quiet (b := { b with positions }) named told
    exact ⟨by rw [notices, notices'], by rw [book, book']; rfl⟩
  | some asked =>
    obtain ⟨_, fill⟩ := asked
    cases named.symm.trans (Command.of_notified told).1
    cases filled : (b.positionOrNew symbol).apply fill with
    | ok result =>
      obtain ⟨_, book, notices⟩ := step_of_notified_ok told filled
      obtain ⟨_, book', notices'⟩ := step_of_notified_ok told (position ▸ filled)
      exact ⟨by rw [notices, notices']; rfl, by rw [book, book']; rfl⟩
    | error failure =>
      obtain ⟨_, book, notices⟩ := step_of_notified_error told filled
      obtain ⟨_, book', notices'⟩ := step_of_notified_error told (position ▸ filled)
      exact ⟨by rw [notices, notices'], by rw [book, book']; rfl⟩

theorem update? (c : Command) : (⟨b', c⟩ : Moment).update? = (⟨b, c⟩ : Moment).update? := by
  cases told : c.notified? with
  | none => simp only [Moment.update?, told]
  | some asked =>
    obtain ⟨symbol, fill⟩ := asked
    have position := alike.positionOrNew symbol
    cases filled : (b.positionOrNew symbol).apply fill with
    | ok result =>
      rw [Moment.update?_of_notified_ok told filled,
        Moment.update?_of_notified_ok told (position ▸ filled), alike.rest]
    | error failure =>
      simp only [Moment.update?, told, Moment.step_mk, (step_of_notified_error told filled).1,
        (step_of_notified_error told (position ▸ filled)).1]

/-- The same command keeps two books alike, as long as positions are opened as before. -/
theorem step {c : Command} (kept : ∀ method ∈ c.defaultMethod?, method = b.defaultMethod) :
    (c.isQuery = false → (b'.step c).answer = (b.step c).answer) ∧
      (b'.step c).notices = (b.step c).notices ∧ (b.step c).book.Alike (b'.step c).book := by
  have opened := defaultMethod_step_of_kept kept
  cases named : c.symbol? with
  | some symbol =>
    obtain ⟨answer, notices, rest⟩ := alike.step_of_symbol named
    refine ⟨fun _ => answer, notices, rest, fun other => ?_⟩
    simp only [find?_step_of_symbol named, alike.served, opened]
    split
    next => exact .inl rfl
    next => exact alike.find? other
  | none =>
    have stepped := b.step_of_positions b'.positions named
    rw [← alike.rest] at stepped
    obtain ⟨answer, notices, rest⟩ := stepped
    refine ⟨answer, notices, rest, fun other => ?_⟩
    simp only [find?_step_of_unnamed named, opened]
    split
    next => exact .inl rfl
    next => exact alike.find? other

/-- A refused fill leaves the first book like the second, to which it was not given. -/
theorem of_refuses {c : Command} (refused : (b.step c).answer.refuses = true) :
    (b.step c).book.Alike b' := by
  obtain ⟨symbol, named, book, _⟩ := step_of_refuses refused
  have opened : (b.step c).book.defaultMethod = b.defaultMethod := by rw [book]; rfl
  refine ⟨by rw [book]; exact alike.rest, fun other => ?_⟩
  rw [opened, book, Book.ensure, find?_put, symbol_positionOrNew]
  by_cases here : symbol = other
  · subst here
    rw [if_pos rfl, Book.positionOrNew]
    -- Only where there was no position is there one now that the second book may lack.
    cases found : b.find? symbol with
    | some p => simpa [found] using alike.find? symbol
    | none => exact .inr ⟨by simpa [found] using alike.find? symbol, rfl⟩
  · rw [if_neg here]
    exact alike.find? other

end Alike

end Book

/-! ## Runs without refused fills -/

/-- Two moments at which the same command does the same, to books that are alike. -/
structure Moment.Agrees (m m' : Moment) : Prop where
  command : m'.command = m.command
  answer : m.command.isQuery = false → m'.step.answer = m.step.answer
  notices : m'.step.notices = m.step.notices
  before : m.before.Alike m'.before
  after : m.step.book.Alike m'.step.book

namespace Book

theorem Alike.run {b b' : Book} (alike : b.Alike b') {commands : List Command} {cut : Moment → Bool}
    (kept : ∀ c ∈ commands, ∀ method ∈ c.defaultMethod?, method = b.defaultMethod)
    (refused : ∀ m ∈ b.moments commands, cut m = true → m.refused = true) :
    let left := (b.moments commands).filter fun m => !cut m
    let rest := left.map Moment.command
    List.Forall₂ Moment.Agrees left (b'.moments rest) ∧
      (b'.run rest).2.flatMap Step.notices = (b.run commands).2.flatMap Step.notices ∧
      updates (b'.moments rest) = updates (b.moments commands) ∧
      (b.run commands).1.Alike (b'.run rest).1 := by
  induction commands generalizing b b' with
  | nil => exact ⟨.nil, rfl, rfl, alike⟩
  | cons c commands ih =>
    rw [List.forall_mem_cons] at kept
    rw [moments, List.forall_mem_cons] at refused
    have kept_after : ∀ c' ∈ commands, ∀ method ∈ c'.defaultMethod?,
        method = (b.step c).book.defaultMethod := by
      rw [defaultMethod_step_of_kept kept.1]
      exact kept.2
    -- A command that is taken out moves the first book alone, any other moves both.
    by_cases out : cut ⟨b, c⟩ = true
    · have refuses : (b.step c).answer.refuses = true := refused.1 out
      obtain ⟨_, _, _, silent⟩ := step_of_refuses refuses
      have unpublished := update?_of_refuses refuses
      have gone_on := ih (alike.of_refuses refuses) kept_after refused.2
      simpa [moments, Book.run, out, silent, updates, unpublished] using gone_on
    · obtain ⟨answer, notices, after⟩ := alike.step kept.1
      obtain ⟨agree, told, published, last⟩ := ih after kept_after refused.2
      have update := alike.update? c
      simp only [moments, Book.run, List.filter_cons, out, List.map_cons, List.flatMap_cons, notices,
        Bool.not_false, if_true]
      refine ⟨.cons ⟨rfl, answer, notices, alike, after⟩ agree, by rw [told], ?_, last⟩
      simp only [updates, List.filterMap_cons, update] at published ⊢
      rw [published]

/-- A refused fill does no more to a book than to open the position of its symbol, and no one is told.
Whichever refused fills are taken out of a run, what is left of it does the same. -/
theorem refusals_invisible (b : Book) :
    (∀ c symbol fill error, c.notified? = some (symbol, fill) →
        (b.step c).answer = .outcome (.error (.refused error)) →
        (b.step c).book = (b.ensure symbol).value ∧
          (b.step c).book
            = { b with
                positions := b.positions
                  ++ if b.find? symbol = none then [.new symbol b.defaultMethod] else [] } ∧
          (b.step c).notices = []) ∧
      ∀ commands (cut : Moment → Bool),
        (∀ c ∈ commands, ∀ method ∈ c.defaultMethod?, method = b.defaultMethod) →
        (∀ m ∈ b.moments commands, cut m = true → m.refused = true) →
        let left := (b.moments commands).filter fun m => !cut m
        let rest := left.map Moment.command
        List.Forall₂ Moment.Agrees left (b.moments rest) ∧
          (b.run rest).2.flatMap Step.notices = (b.run commands).2.flatMap Step.notices ∧
          updates (b.moments rest) = updates (b.moments commands) ∧
          (b.run commands).1.Alike (b.run rest).1 ∧
          ∀ symbol p, (b.run commands).1.find? symbol = some p → 0 < p.tradeCount →
            (b.run rest).1.find? symbol = some p := by
  constructor
  · intro c symbol fill error told answer
    obtain ⟨symbol', named, book, notices⟩ := step_of_refuses (b := b) (c := c) (by rw [answer]; rfl)
    cases named.symm.trans (Command.of_notified told).1
    exact ⟨book, by rw [book, ensure_eq], notices⟩
  · intro commands cut kept refused left rest
    obtain ⟨agree, told, published, last⟩ := (Alike.refl b).run kept refused
    exact ⟨agree, told, published, last, fun _ _ found traded => last.find?_of_tradeCount found traded⟩

/-- A purchase, a sale of more than that, a fill of nothing in another symbol, and a sale. -/
def purchaseOversoldThenSold : List Command :=
  let two := Decimal.written 2 0
  [.openChannel none, .fill "X" .buy two 1, .fill "X" .sell (.written 3 0) 1, .fill "Y" .buy 0 1,
    .fill "X" .sell 1 two]

theorem refusals_invisible_purchaseOversoldThenSold :
    let b : Book := {}
    let commands := purchaseOversoldThenSold
    (Command.fill "Y" .buy 0 1).notified? = some ("Y", ⟨.buy, 0, 1⟩) ∧
      (b.step (.fill "Y" .buy 0 1)).answer = .outcome (.error (.refused (.invalidFill 0 1))) ∧
      (b.step (.fill "Y" .buy 0 1)).book = (b.ensure "Y").value ∧
      (b.moments commands).map Moment.refused = [false, false, true, true, false] ∧
      (∀ c ∈ commands, ∀ method ∈ c.defaultMethod?, method = b.defaultMethod) ∧
      let left := (b.moments commands).filter fun m => !m.refused
      List.Forall₂ Moment.Agrees left (b.moments (left.map Moment.command)) := by
  intro b commands
  have kept : ∀ c ∈ commands, ∀ method ∈ c.defaultMethod?, method = b.defaultMethod := by
    simp [commands, purchaseOversoldThenSold, Command.defaultMethod?]
  have one := b.refusals_invisible.1 (.fill "Y" .buy 0 1) "Y" ⟨.buy, 0, 1⟩ (.invalidFill 0 1) rfl rfl
  have all := b.refusals_invisible.2 commands Moment.refused kept fun _ _ refused => refused
  exact ⟨rfl, rfl, one.1, by decide +kernel, kept, all.1⟩

end Book

end CostBasis
