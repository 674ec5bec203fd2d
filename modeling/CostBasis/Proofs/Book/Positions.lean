import CostBasis.Book.Command
import CostBasis.Proofs.Ledger.Session

/-!
# Positions of a book

What commands do to the positions of a book.  A command names at most one symbol: it opens the position
of that symbol if there is none, makes its request to it and touches no other.  Only `clear` takes
positions away, and only `setDefaultMethod` changes how later ones are opened.
-/

namespace CostBasis

/-! ## Requests to a position -/

namespace Position

/-- The position after a request.  One that is refused leaves it as it was. -/
def serve (p : Position) : Request → Position
  | .fill fill =>
    match p.apply fill with
    | .ok (next, _) => next
    | .error _ => p
  | .setMethod method =>
    match p.setMethod method with
    | .ok changed => changed.value
    | .error _ => p

def reply (p : Position) : Request → Answer
  | .fill fill => .outcome ((p.apply fill).map Prod.snd)
  | .setMethod method => .methodSet ((p.setMethod method).map fun _ => ())

@[simp] theorem symbol_serve (p : Position) (request : Request) :
    (p.serve request).symbol = p.symbol := by
  cases request with
  | fill fill =>
    simp only [serve]
    split
    next filled => exact symbol_of_fill filled
    next => rfl
  | setMethod method =>
    simp only [serve, setMethod]
    split
    next changed set =>
      split at set
      · cases set
        rfl
      · split at set <;> cases set
        rfl
    next => rfl

end Position

theorem Session.position_of_step {s s' : Session} {request : Request} (h : s.step request = .ok s') :
    s'.position = s.position.serve request := by
  cases request with
  | fill fill =>
    simp only [step] at h
    simp only [Position.serve]
    split at h <;> cases h <;> simp_all [accept]
  | setMethod method =>
    simp only [step] at h
    simp only [Position.serve]
    split at h <;> cases h <;> simp_all

/-! ## What a command names -/

namespace Command

/-- The symbol whose position a command asks for: to fill it, to change its method or to have it. -/
def symbol? : Command → Option String
  | .fill symbol .. | .adjust symbol .. | .ensure symbol | .setMethod symbol _ => some symbol
  | .apply report _ => some report.symbol
  | _ => none

/-- What a command asks of the position of its symbol, beyond there being one. -/
def request? : Command → Option Request
  | .fill _ side quantity price | .adjust _ side quantity price =>
    some (.fill ⟨side, quantity, price⟩)
  | .apply report side => some (.fill ⟨side, report.lastFillQuantity, report.lastFillPrice⟩)
  | .setMethod _ method => some (.setMethod method)
  | _ => none

/-- A fill that subscribers and channels are told of once it is accepted, with its symbol. -/
def notified? : Command → Option (String × Fill)
  | .fill symbol side quantity price => some (symbol, ⟨side, quantity, price⟩)
  | .apply report side =>
    some (report.symbol, ⟨side, report.lastFillQuantity, report.lastFillPrice⟩)
  | _ => none

theorem of_notified {c : Command} {symbol : String} {fill : Fill}
    (told : c.notified? = some (symbol, fill)) :
    c.symbol? = some symbol ∧ c.request? = some (.fill fill) := by
  cases c with
  | fill | apply =>
    cases told
    exact ⟨rfl, rfl⟩
  | _ => cases told

def defaultMethod? : Command → Option Method
  | .setDefaultMethod method => some method
  | _ => none

theorem defaultMethod?_of_symbol {c : Command} {symbol : String} (named : c.symbol? = some symbol) :
    c.defaultMethod? = none := by
  cases c with
  | setDefaultMethod => cases named
  | _ => rfl

def methodAfter (initial : Method) (commands : List Command) : Method :=
  commands.foldl (fun method c => c.defaultMethod?.getD method) initial

def clears : Command → Bool
  | .clear => true
  | _ => false

end Command

namespace Book

/-! ## Finding and putting -/

theorem putPosition_putPosition {p q : Position} (same : p.symbol = q.symbol) (ps : List Position) :
    putPosition q (putPosition p ps) = putPosition q ps := by
  induction ps with
  | nil => simp [putPosition, same]
  | cons first rest ih =>
    simp only [putPosition]
    split
    next found => simp [putPosition, same, same ▸ found]
    next other => simp [putPosition, same ▸ other, ih]

@[simp] theorem find?_put (b : Book) (p : Position) (symbol : String) :
    (b.put p).find? symbol = if p.symbol = symbol then some p else b.find? symbol := by
  simp only [find?, put]
  induction b.positions with
  | nil => by_cases same : p.symbol = symbol <;> simp [putPosition, same]
  | cons first rest ih =>
    simp only [putPosition]
    split
    next found =>
      simp only [List.find?_cons, found]
      by_cases same : p.symbol = symbol <;> simp [same]
    next other =>
      simp only [List.find?_cons, ih]
      by_cases same : first.symbol = symbol
      · simp [same ▸ Ne.symm other, same]
      · simp [same]

theorem symbol_of_find? {b : Book} {symbol : String} {p : Position} (h : b.find? symbol = some p) :
    p.symbol = symbol := by
  simpa using List.find?_some h

theorem isSome_find?_iff {b : Book} {symbol : String} :
    (b.find? symbol).isSome = true ↔ symbol ∈ b.positions.map Position.symbol := by
  simp only [find?, List.find?_isSome, decide_eq_true_eq, List.mem_map]

theorem mem_positions_iff {b : Book} (distinct : (b.positions.map Position.symbol).Nodup) {p : Position} :
    p ∈ b.positions ↔ b.find? p.symbol = some p := by
  refine ⟨fun mem => ?_, List.mem_of_find?_eq_some⟩
  obtain ⟨q, found⟩ := Option.isSome_iff_exists.mp (isSome_find?_iff.mpr (List.mem_map_of_mem mem))
  have same := List.inj_on_of_nodup_map distinct (List.mem_of_find?_eq_some found) mem (symbol_of_find? found)
  exact same ▸ found

@[simp] theorem symbol_positionOrNew (b : Book) (symbol : String) :
    (b.positionOrNew symbol).symbol = symbol := by
  simp only [positionOrNew]
  cases found : b.find? symbol with
  | none => rfl
  | some p => exact symbol_of_find? found

theorem put_ensure (b : Book) {symbol : String} {p : Position} (same : p.symbol = symbol) :
    (b.ensure symbol).value.put p = b.put p := by
  simp only [ensure, put]
  rw [putPosition_putPosition (by simp [same])]

theorem putPosition_getD {symbol : String} {fresh : Position} (same : fresh.symbol = symbol)
    (ps : List Position) :
    putPosition ((ps.find? fun p => p.symbol = symbol).getD fresh) ps
      = ps ++ if (ps.find? fun p => p.symbol = symbol) = none then [fresh] else [] := by
  induction ps with
  | nil => simp [putPosition]
  | cons first rest ih =>
    by_cases here : first.symbol = symbol
    · simp [here, putPosition]
    · have other : ((rest.find? fun p => p.symbol = symbol).getD fresh).symbol = symbol := by
        cases found : rest.find? fun p => p.symbol = symbol with
        | none => exact same
        | some p => simpa using List.find?_some found
      simp only [List.find?_cons, here, decide_false, putPosition, other, if_false, ih,
        List.cons_append]

/-- A position that is there already stays in its place, and a new one comes last. -/
theorem ensure_eq (b : Book) (symbol : String) :
    (b.ensure symbol).value
      = { b with
          positions := b.positions
            ++ if b.find? symbol = none then [Position.new symbol b.defaultMethod] else [] } := by
  simp only [ensure, put]
  rw [positionOrNew, find?, putPosition_getD (show (Position.new symbol _).symbol = symbol from rfl)]

/-! ## Commands that name a symbol -/

section

variable {b : Book} {symbol : String} {fill : Fill}

theorem fill_of_ok {next : Position} {outcome : FillOutcome}
    (filled : (b.positionOrNew symbol).apply fill = .ok (next, outcome)) :
    let s := b.fill symbol fill.side fill.quantity fill.price
    s.answer = .ok outcome ∧
      s.book
        = { b.put next with
            publisher :=
              (b.publisher.publish fill.side fill.quantity fill.price outcome next).value } ∧
      s.notices = b.notices next := by
  have same : next.symbol = symbol := by simp [Position.symbol_of_fill filled]
  rw [Position.apply] at filled
  simp only [Book.fill, filled, put_ensure b same, and_self]

theorem fill_of_error {failure : FillFailure}
    (failed : (b.positionOrNew symbol).apply fill = .error failure) :
    let s := b.fill symbol fill.side fill.quantity fill.price
    s.answer = .error failure ∧ s.book = (b.ensure symbol).value ∧ s.notices = [] := by
  rw [Position.apply] at failed
  simp only [Book.fill, failed, and_self]

variable {c : Command} (told : c.notified? = some (symbol, fill))

include told

/-- An accepted fill changes the position and is told of. -/
theorem step_of_notified_ok {next : Position} {outcome : FillOutcome}
    (filled : (b.positionOrNew symbol).apply fill = .ok (next, outcome)) :
    (b.step c).answer = .outcome (.ok outcome) ∧
      (b.step c).book
        = { b.put next with
            publisher :=
              (b.publisher.publish fill.side fill.quantity fill.price outcome next).value } ∧
      (b.step c).notices = b.notices next := by
  obtain ⟨answer, book, notices⟩ := fill_of_ok filled
  cases c with
  | fill | apply =>
    cases told
    exact ⟨congrArg Answer.outcome answer, book, notices⟩
  | _ => cases told

theorem find?_step_of_notified_ok {next : Position} {outcome : FillOutcome}
    (filled : (b.positionOrNew symbol).apply fill = .ok (next, outcome)) :
    (b.step c).book.find? symbol = some next := by
  obtain ⟨_, book, _⟩ := step_of_notified_ok told filled
  have same : next.symbol = symbol := by simp [Position.symbol_of_fill filled]
  rw [book]
  exact (b.find?_put next symbol).trans (if_pos same)

/-- A fill that is not accepted does no more than to open the position. -/
theorem step_of_notified_error {failure : FillFailure}
    (failed : (b.positionOrNew symbol).apply fill = .error failure) :
    (b.step c).answer = .outcome (.error failure) ∧
      (b.step c).book = (b.ensure symbol).value ∧ (b.step c).notices = [] := by
  obtain ⟨answer, book, notices⟩ := fill_of_error failed
  cases c with
  | fill | apply =>
    cases told
    exact ⟨congrArg Answer.outcome answer, book, notices⟩
  | _ => cases told

end

def served (b : Book) (symbol : String) (c : Command) : Position :=
  c.request?.elim (b.positionOrNew symbol) (b.positionOrNew symbol).serve

@[simp] theorem symbol_served (b : Book) (symbol : String) (c : Command) :
    (b.served symbol c).symbol = symbol := by
  simp only [served]
  cases c.request? <;> simp

section

variable {b : Book} {c : Command} {symbol : String} (named : c.symbol? = some symbol)

include named

/-- The other commands put the position in its place, and no one is told. -/
theorem step_of_quiet (quiet : c.notified? = none) :
    (b.step c).answer
        = c.request?.elim (.position (b.positionOrNew symbol)) (b.positionOrNew symbol).reply ∧
      (b.step c).book = b.put (b.served symbol c) ∧ (b.step c).notices = [] := by
  have placed := b.put_ensure (b.symbol_served symbol c)
  cases c with
  | adjust _ side quantity price =>
    cases named
    simp only [served, Command.request?, Option.elim_some, Position.serve, Position.reply] at placed ⊢
    simp only [step, Step.ofFill, adjust, Position.apply] at placed ⊢
    cases filled : (b.positionOrNew symbol).fill side quantity price with
    | ok result =>
      rw [filled] at placed
      exact ⟨rfl, placed, rfl⟩
    | error failure => exact ⟨rfl, rfl, rfl⟩
  | setMethod _ method =>
    cases named
    simp only [served, Command.request?, Option.elim_some, Position.serve, Position.reply] at placed ⊢
    simp only [step, setMethod]
    cases set : (b.positionOrNew symbol).setMethod method with
    | ok changed =>
      rw [set] at placed
      exact ⟨rfl, placed, trivial⟩
    | error error => exact ⟨rfl, rfl, trivial⟩
  | ensure =>
    cases named
    exact ⟨rfl, rfl, rfl⟩
  | fill | apply => cases quiet
  | _ => cases named

/-- The position takes its place with the request made to it; beside it only the publisher changes. -/
theorem step_of_symbol :
    (b.step c).answer
        = c.request?.elim (.position (b.positionOrNew symbol)) (b.positionOrNew symbol).reply ∧
      ∃ publisher, (b.step c).book = { b.put (b.served symbol c) with publisher } := by
  cases told : c.notified? with
  | none =>
    obtain ⟨answer, book, _⟩ := step_of_quiet (b := b) named told
    exact ⟨answer, b.publisher, book⟩
  | some fill =>
    obtain ⟨_, fill⟩ := fill
    obtain ⟨named', asked⟩ := Command.of_notified told
    cases named.symm.trans named'
    simp only [served, asked, Option.elim_some, Position.reply, Position.serve]
    cases filled : (b.positionOrNew symbol).apply fill with
    | ok result =>
      obtain ⟨answer, book, _⟩ := step_of_notified_ok told filled
      exact ⟨answer, _, book⟩
    | error failure =>
      obtain ⟨answer, book, _⟩ := step_of_notified_error told filled
      exact ⟨answer, b.publisher, book⟩

theorem find?_step_of_symbol (other : String) :
    (b.step c).book.find? other = if symbol = other then some (b.served symbol c) else b.find? other := by
  obtain ⟨_, publisher, book⟩ := step_of_symbol (b := b) named
  have put := b.find?_put (b.served symbol c) other
  rw [symbol_served] at put
  rw [book]
  exact put

end

/-! ## Commands that name none -/

theorem positions_step_of_clears {b : Book} {c : Command} (clears : c.clears = true) :
    (b.step c).book.positions = [] := by
  cases c with
  | clear => rfl
  | _ => cases clears

theorem positions_step_of_unnamed {b : Book} {c : Command} (unnamed : c.symbol? = none)
    (kept : c.clears = false) : (b.step c).book.positions = b.positions := by
  cases c with
  | clear => cases kept
  | unsubscribe | receive | disconnect =>
    simp only [step]
    split <;> rfl
  | setDefaultMethod | subscribe | subscribeOnly | openChannel | query => rfl
  | _ => cases unnamed

theorem find?_step_of_unnamed {b : Book} {c : Command} (unnamed : c.symbol? = none) (symbol : String) :
    (b.step c).book.find? symbol = if c.clears then none else b.find? symbol := by
  simp only [find?]
  cases clears : c.clears with
  | true => simp [positions_step_of_clears clears]
  | false => simp [positions_step_of_unnamed unnamed clears]

theorem defaultMethod_step (b : Book) (c : Command) :
    (b.step c).book.defaultMethod = c.defaultMethod?.getD b.defaultMethod := by
  cases c with
  | fill | apply | adjust =>
    simp only [step, Step.ofFill, apply, fill, adjust, Command.defaultMethod?]
    split <;> rfl
  | setMethod =>
    simp only [step, setMethod, Command.defaultMethod?]
    split <;> rfl
  | unsubscribe | receive | disconnect =>
    simp only [step, Command.defaultMethod?]
    split <;> rfl
  | _ => rfl

theorem defaultMethod_step_of_kept {b : Book} {c : Command}
    (kept : ∀ method ∈ c.defaultMethod?, method = b.defaultMethod) :
    (b.step c).book.defaultMethod = b.defaultMethod := by
  rw [defaultMethod_step]
  cases set : c.defaultMethod? with
  | none => rfl
  | some method => exact kept method set

/-! ## Runs -/

theorem run_append (b : Book) (first second : List Command) :
    (b.run (first ++ second)).1 = ((b.run first).1.run second).1 ∧
      (b.run (first ++ second)).2 = (b.run first).2 ++ ((b.run first).1.run second).2 := by
  induction first generalizing b with
  | nil => exact ⟨rfl, rfl⟩
  | cons c rest ih =>
    obtain ⟨book, steps⟩ := ih (b.step c).book
    simp only [List.cons_append, run, book, steps, and_self]

theorem book_run_concat (b : Book) (commands : List Command) (c : Command) :
    (b.run (commands ++ [c])).1 = ((b.run commands).1.step c).book :=
  (b.run_append commands [c]).1

theorem length_steps (b : Book) (commands : List Command) :
    (b.run commands).2.length = commands.length := by
  induction commands generalizing b with
  | nil => rfl
  | cons c rest ih => simp [run, ih]

theorem defaultMethod_run (b : Book) (commands : List Command) :
    (b.run commands).1.defaultMethod = Command.methodAfter b.defaultMethod commands := by
  induction commands generalizing b with
  | nil => rfl
  | cons c rest ih =>
    simp only [run, ih, defaultMethod_step]
    rfl

end Book

/-- A command of a run with the book that it was given to. -/
structure Moment where
  before : Book
  command : Command

def Moment.step (m : Moment) : Step Answer := m.before.step m.command

@[simp] theorem Moment.step_mk (b : Book) (c : Command) : (⟨b, c⟩ : Moment).step = b.step c := rfl

namespace Book

def moments (b : Book) : List Command → List Moment
  | [] => []
  | c :: rest => ⟨b, c⟩ :: (b.step c).book.moments rest

theorem moments_append (b : Book) (first second : List Command) :
    b.moments (first ++ second) = b.moments first ++ (b.run first).1.moments second := by
  induction first generalizing b with
  | nil => rfl
  | cons c rest ih => simp [moments, run, ih]

def answersFor (symbol : String) (ms : List Moment) : List Answer :=
  (ms.filter fun m => m.command.symbol? = some symbol).map fun m => m.step.answer

@[simp] theorem answersFor_append (symbol : String) (first second : List Moment) :
    answersFor symbol (first ++ second) = answersFor symbol first ++ answersFor symbol second := by
  simp [answersFor]

@[simp] theorem answersFor_cons (symbol : String) (m : Moment) (rest : List Moment) :
    answersFor symbol (m :: rest)
      = (if m.command.symbol? = some symbol then [m.step.answer] else []) ++ answersFor symbol rest := by
  by_cases named : m.command.symbol? = some symbol <;> simp [answersFor, named]

theorem steps_eq (b : Book) (commands : List Command) :
    (b.run commands).2 = (b.moments commands).map Moment.step := by
  induction commands generalizing b with
  | nil => rfl
  | cons c rest ih =>
    simp only [run, moments, List.map_cons, ih]
    rfl

end Book

end CostBasis
