import Mathlib.Data.List.DropRight
import CostBasis.Proofs.Book.Positions

/-!
# Symbols on their own

In a book every symbol lives on its own: its position is the one that a new position becomes when it is
given the requests for the symbol alone, in their order and from the last clear on.  So commands for
two symbols can be exchanged.
-/

namespace CostBasis

/-! ## What a run holds for a symbol -/

namespace Command

/-- The commands since a run last forgot all positions. -/
def sinceClear (commands : List Command) : List Command := commands.rtakeWhile fun c => !c.clears

/-- The commands from the one on that opened the position of a symbol, as long as there is one. -/
def lifetime (symbol : String) (commands : List Command) : List Command :=
  (sinceClear commands).dropWhile fun c => c.symbol? ≠ some symbol

/-- The default method in force when the position of a symbol was opened, or now if there is none. -/
def openingMethod (initial : Method) (symbol : String) (commands : List Command) : Method :=
  methodAfter initial (commands.take (commands.length - (lifetime symbol commands).length))

/-- The requests to the position of a symbol. -/
def requests (symbol : String) (commands : List Command) : List Request :=
  ((lifetime symbol commands).filter fun c => c.symbol? = some symbol).filterMap request?

/-- The position of a symbol on its own: a new one, given the requests of a run for the symbol. -/
def standalone (initial : Method) (symbol : String) (commands : List Command) : Except Fault Session :=
  (Session.start symbol (openingMethod initial symbol commands)).run (requests symbol commands)

section

variable {initial : Method} {symbol : String} {commands : List Command} {c : Command}

theorem lifetime_eq_nil_iff :
    lifetime symbol commands = [] ↔ ∀ c ∈ sinceClear commands, c.symbol? ≠ some symbol := by
  simp [lifetime, List.dropWhile_eq_nil_iff]

theorem lifetime_length_le : (lifetime symbol commands).length ≤ commands.length :=
  (List.dropWhile_sublist _).length_le.trans (List.rtakeWhile_suffix _ _).length_le

theorem lifetime_concat_of_clears (clears : c.clears = true) :
    lifetime symbol (commands ++ [c]) = [] := by
  simp [lifetime, sinceClear, clears]

/-- A command goes on with a life that has begun, or begins one. -/
theorem lifetime_concat (kept : c.clears = false)
    (alive : lifetime symbol commands ≠ [] ∨ c.symbol? = some symbol) :
    lifetime symbol (commands ++ [c]) = lifetime symbol commands ++ [c] := by
  simp only [lifetime, sinceClear] at alive ⊢
  rw [List.rtakeWhile_concat, if_pos (by simp [kept]), List.dropWhile_append]
  cases alive with
  | inl begun => rw [if_neg (by rwa [List.isEmpty_iff])]
  | inr named => split <;> simp_all

theorem lifetime_concat_of_unnamed (kept : c.clears = false) (none : lifetime symbol commands = [])
    (unnamed : c.symbol? ≠ some symbol) : lifetime symbol (commands ++ [c]) = [] := by
  simp only [lifetime, sinceClear] at none ⊢
  rw [List.rtakeWhile_concat, if_pos (by simp [kept]), List.dropWhile_append, none]
  simp [unnamed]

theorem openingMethod_of_nil (none : lifetime symbol commands = []) :
    openingMethod initial symbol commands = methodAfter initial commands := by
  simp [openingMethod, none]

/-- The opening of a life stays the same as it goes on. -/
theorem openingMethod_concat (kept : c.clears = false)
    (alive : lifetime symbol commands ≠ [] ∨ c.symbol? = some symbol) :
    openingMethod initial symbol (commands ++ [c]) = openingMethod initial symbol commands := by
  have le : (lifetime symbol commands).length ≤ commands.length := lifetime_length_le
  have same : (commands ++ [c]).length - (lifetime symbol commands ++ [c]).length
      = commands.length - (lifetime symbol commands).length := by
    simp
  simp only [openingMethod, lifetime_concat kept alive]
  rw [same, List.take_append_of_le_length (Nat.sub_le _ _)]

theorem requests_concat_of_symbol (named : c.symbol? = some symbol) (kept : c.clears = false) :
    requests symbol (commands ++ [c]) = requests symbol commands ++ c.request?.toList := by
  simp only [requests, lifetime_concat kept (.inr named), List.filter_append, List.filterMap_append]
  cases asked : c.request? <;> simp [named, asked]

theorem requests_concat_of_ne (unnamed : c.symbol? ≠ some symbol) (kept : c.clears = false)
    (begun : lifetime symbol commands ≠ []) :
    requests symbol (commands ++ [c]) = requests symbol commands := by
  simp [requests, lifetime_concat kept (.inl begun), unnamed]

theorem requests_of_nil (none : lifetime symbol commands = []) : requests symbol commands = [] := by
  simp [requests, none]

theorem clears_of_symbol (named : c.symbol? = some symbol) : c.clears = false := by
  cases c with
  | clear => cases named
  | _ => rfl

end

end Command

/-! ## Isolation -/

namespace Book

open Command

section

variable {b : Book} {symbol : String} {commands : List Command}

/-- What a book holds of a symbol is the position of the symbol on its own. -/
def Holds (b : Book) (symbol : String) (commands : List Command) (s : Session) : Prop :=
  standalone b.defaultMethod symbol commands = .ok s ∧ s.position.Sound ∧
    (b.run commands).1.find? symbol
      = if lifetime symbol commands = [] then none else some s.position

theorem holds_of_nil (none : lifetime symbol commands = [])
    (absent : (b.run commands).1.find? symbol = .none) :
    b.Holds symbol commands (.start symbol (methodAfter b.defaultMethod commands)) := by
  refine ⟨?_, Session.start_sound symbol _, by rw [absent, if_pos none]⟩
  rw [standalone, openingMethod_of_nil none, requests_of_nil none]
  rfl

theorem Holds.positionOrNew {s : Session} (holds : b.Holds symbol commands s) :
    (b.run commands).1.positionOrNew symbol = s.position := by
  obtain ⟨ran, _, found⟩ := holds
  rw [Book.positionOrNew, found, defaultMethod_run]
  by_cases none : lifetime symbol commands = []
  · rw [standalone, openingMethod_of_nil none, requests_of_nil none] at ran
    cases ran
    simp [none, Session.start]
  · simp [none]

/-- A command that names the symbol makes its request to the position on its own as well. -/
theorem Holds.of_symbol {s : Session} (holds : b.Holds symbol commands s) {c : Command}
    (named : c.symbol? = some symbol) : ∃ s', b.Holds symbol (commands ++ [c]) s' := by
  have kept := clears_of_symbol named
  have position := holds.positionOrNew
  obtain ⟨ran, sound, _⟩ := holds
  have alive : lifetime symbol (commands ++ [c]) ≠ [] := by
    simp [lifetime_concat kept (.inr named)]
  have further : standalone b.defaultMethod symbol (commands ++ [c])
      = s.run c.request?.toList := by
    rw [standalone, openingMethod_concat kept (.inr named), requests_concat_of_symbol named kept,
      Session.run_append, ← standalone, ran, ok_bind]
  simp only [Holds, book_run_concat, find?_step_of_symbol named, if_true, if_neg alive, further, served,
    position]
  cases c.request? with
  | none => exact ⟨s, rfl, sound, rfl⟩
  | some request =>
    obtain ⟨s', stepped, _, sound'⟩ := Session.exists_turn sound request
    refine ⟨s', ?_, sound', ?_⟩
    · simp [Session.run, stepped]
    · rw [Session.position_of_step stepped]
      rfl

theorem Holds.of_ne {s : Session} (holds : b.Holds symbol commands s) {c : Command}
    (unnamed : c.symbol? ≠ some symbol) (kept : c.clears = false) :
    ∃ s', b.Holds symbol (commands ++ [c]) s' := by
  have untouched : (b.run (commands ++ [c])).1.find? symbol = (b.run commands).1.find? symbol := by
    rw [book_run_concat]
    cases named : c.symbol? with
    | none => simp [find?_step_of_unnamed named, kept]
    | some other =>
      have differ : other ≠ symbol := fun same => unnamed (same ▸ named)
      rw [find?_step_of_symbol named, if_neg differ]
  obtain ⟨ran, sound, found⟩ := holds
  by_cases none : lifetime symbol commands = []
  · rw [if_pos none] at found
    exact ⟨_, holds_of_nil (lifetime_concat_of_unnamed kept none unnamed) (untouched.trans found)⟩
  · refine ⟨s, ?_, sound, ?_⟩
    · rw [standalone, openingMethod_concat kept (.inl none), requests_concat_of_ne unnamed kept none]
      exact ran
    · rw [untouched, found, if_neg none, if_neg (by simp [lifetime_concat kept (.inl none)])]

theorem exists_holds (empty : b.positions = []) (symbol : String) (commands : List Command) :
    ∃ s, b.Holds symbol commands s := by
  -- On the end of the run, since the last clear and the opening are looked for from there.
  induction commands using List.reverseRecOn with
  | nil => exact ⟨_, holds_of_nil rfl (by simp [run, find?, empty])⟩
  | append_singleton commands c ih =>
    obtain ⟨s, holds⟩ := ih
    by_cases clears : c.clears = true
    · refine ⟨_, holds_of_nil (lifetime_concat_of_clears clears) ?_⟩
      rw [book_run_concat, find?, positions_step_of_clears clears]
      rfl
    · have kept : c.clears = false := by simpa using clears
      by_cases named : c.symbol? = some symbol
      · exact holds.of_symbol named
      · exact holds.of_ne named kept

end

/-! ## Keys -/

/-- Positions filed under keys, whatever symbols they have. -/
abbrev Filing := List (String × Position)

namespace Filing

def ofPositions (ps : List Position) : Filing := ps.map fun p => (p.symbol, p)

def put (key : String) (p : Position) : Filing → Filing
  | [] => [(key, p)]
  | (k, q) :: rest => if k = key then (k, p) :: rest else (k, q) :: put key p rest

/-- A command makes its request to whatever position is filed under the symbol that it names. -/
def step (method : Method) (filed : Filing) (c : Command) : Filing :=
  if c.clears then []
  else
    match c.symbol? with
    | none => filed
    | some key =>
      let p := (filed.lookup key).getD (Position.new key method)
      put key (c.request?.elim p p.serve) filed

def run (method : Method) (filed : Filing) : List Command → Filing
  | [] => filed
  | c :: rest => run (c.defaultMethod?.getD method) (step method filed c) rest

theorem lookup_ofPositions (ps : List Position) (symbol : String) :
    (ofPositions ps).lookup symbol = ps.find? fun p => p.symbol = symbol := by
  induction ps with
  | nil => rfl
  | cons first rest ih =>
    simp only [ofPositions] at ih
    by_cases here : first.symbol = symbol
    · simp [ofPositions, here]
    · have other : (symbol == first.symbol) = false := by simpa using Ne.symm here
      simp [ofPositions, List.lookup_cons, other, here, ih]

theorem put_ofPositions (p : Position) (ps : List Position) :
    put p.symbol p (ofPositions ps) = ofPositions (putPosition p ps) := by
  induction ps with
  | nil => rfl
  | cons first rest ih =>
    simp only [ofPositions] at ih
    by_cases here : first.symbol = p.symbol
    · simp [ofPositions, put, putPosition, here]
    · simp [ofPositions, put, putPosition, here, ih]

theorem step_ofPositions (b : Book) (c : Command) :
    step b.defaultMethod (ofPositions b.positions) c = ofPositions (b.step c).book.positions := by
  by_cases clears : c.clears = true
  · rw [step, if_pos clears, positions_step_of_clears clears]
    rfl
  · rw [step, if_neg clears]
    cases named : c.symbol? with
    | none => rw [positions_step_of_unnamed named (by simpa using clears)]
    | some key =>
      obtain ⟨_, publisher, book⟩ := step_of_symbol (b := b) named
      have placed := put_ofPositions (b.served key c) b.positions
      rw [symbol_served] at placed
      simp only [book, lookup_ofPositions]
      exact placed

/-- Every position stays filed under its own symbol. -/
theorem run_ofPositions (b : Book) (commands : List Command) :
    run b.defaultMethod (ofPositions b.positions) commands
      = ofPositions (b.run commands).1.positions := by
  induction commands generalizing b with
  | nil => rfl
  | cons c rest ih =>
    simp only [run, Book.run]
    rw [step_ofPositions, ← defaultMethod_step, ih]

end Filing

theorem symbols_putPosition (p : Position) (ps : List Position) :
    (putPosition p ps).map Position.symbol
      = ps.map Position.symbol ++ if p.symbol ∈ ps.map Position.symbol then [] else [p.symbol] := by
  induction ps with
  | nil => simp [putPosition]
  | cons first rest ih =>
    simp only [putPosition]
    split
    next here => simp [here]
    next other => simp [ih, Ne.symm other]

theorem nodup_step {b : Book} (distinct : (b.positions.map Position.symbol).Nodup) (c : Command) :
    ((b.step c).book.positions.map Position.symbol).Nodup := by
  by_cases clears : c.clears = true
  · simp [positions_step_of_clears clears]
  · cases named : c.symbol? with
    | none => rwa [positions_step_of_unnamed named (by simpa using clears)]
    | some symbol =>
      obtain ⟨_, publisher, book⟩ := step_of_symbol (b := b) named
      rw [book]
      simp only [put, symbols_putPosition]
      split
      next => rwa [List.append_nil]
      next absent => exact List.nodup_append_comm.mp (List.nodup_cons.mpr ⟨absent, distinct⟩)

theorem nodup_run {b : Book} (distinct : (b.positions.map Position.symbol).Nodup)
    (commands : List Command) : ((b.run commands).1.positions.map Position.symbol).Nodup := by
  induction commands generalizing b with
  | nil => exact distinct
  | cons c rest ih => exact ih (nodup_step distinct c)

/-! ## Exchange -/

/-- Two books that hold the same positions, whatever else is in them. -/
structure SameLedger (b b' : Book) : Prop where
  defaultMethod : b.defaultMethod = b'.defaultMethod
  find? : ∀ symbol, b.find? symbol = b'.find? symbol

namespace SameLedger

variable {b b' : Book} (same : SameLedger b b')

include same

theorem positionOrNew (symbol : String) : b.positionOrNew symbol = b'.positionOrNew symbol := by
  simp only [Book.positionOrNew, same.find?, same.defaultMethod]

theorem answer {c : Command} {symbol : String} (named : c.symbol? = some symbol) :
    (b.step c).answer = (b'.step c).answer := by
  rw [(step_of_symbol named).1, (step_of_symbol named).1, same.positionOrNew]

theorem step (c : Command) : SameLedger (b.step c).book (b'.step c).book where
  defaultMethod := by rw [defaultMethod_step, defaultMethod_step, same.defaultMethod]
  find? symbol := by
    cases named : c.symbol? with
    | some other =>
      rw [find?_step_of_symbol named, find?_step_of_symbol named]
      simp only [served, same.positionOrNew, same.find?]
    | none => simp only [find?_step_of_unnamed named, same.find?]

theorem run (commands : List Command) :
    SameLedger (b.run commands).1 (b'.run commands).1 ∧
      ∀ symbol, answersFor symbol (b.moments commands) = answersFor symbol (b'.moments commands) := by
  induction commands generalizing b b' with
  | nil => exact ⟨same, fun _ => rfl⟩
  | cons c rest ih =>
    obtain ⟨ledger, answers⟩ := ih (same.step c)
    refine ⟨ledger, fun symbol => ?_⟩
    simp only [moments, answersFor_cons, Moment.step_mk, answers]
    by_cases named : c.symbol? = some symbol
    · rw [if_pos named, if_pos named, same.answer named]
    · rw [if_neg named, if_neg named]

end SameLedger

section

variable {b : Book} {c d : Command} {first second : String} (c_named : c.symbol? = some first)
  (d_named : d.symbol? = some second) (differ : first ≠ second)

include c_named differ

theorem positionOrNew_step_of_ne :
    (b.step c).book.positionOrNew second = b.positionOrNew second := by
  rw [positionOrNew, find?_step_of_symbol c_named, if_neg differ, defaultMethod_step,
    defaultMethod?_of_symbol c_named]
  rfl

include d_named

theorem answer_exchange : ((b.step c).book.step d).answer = (b.step d).answer := by
  rw [(step_of_symbol d_named).1, (step_of_symbol d_named).1,
    positionOrNew_step_of_ne c_named differ]

theorem sameLedger_exchange :
    SameLedger ((b.step c).book.step d).book ((b.step d).book.step c).book where
  defaultMethod := by
    simp only [defaultMethod_step, defaultMethod?_of_symbol c_named, defaultMethod?_of_symbol d_named,
      Option.getD_none]
  find? symbol := by
    simp only [find?_step_of_symbol c_named, find?_step_of_symbol d_named, served,
      positionOrNew_step_of_ne c_named differ, positionOrNew_step_of_ne d_named differ.symm]
    by_cases at_first : first = symbol
    · simp [at_first, at_first ▸ differ.symm]
    · simp [at_first]

/-- Exchanging them in a run changes no position and no answer for any symbol. -/
theorem run_exchange (done rest : List Command) (symbol : String) :
    (b.run (done ++ c :: d :: rest)).1.find? symbol = (b.run (done ++ d :: c :: rest)).1.find? symbol ∧
      answersFor symbol (b.moments (done ++ c :: d :: rest))
        = answersFor symbol (b.moments (done ++ d :: c :: rest)) := by
  have exchanged := (sameLedger_exchange (b := (b.run done).1) c_named d_named differ).run rest
  have c_answer := answer_exchange (b := (b.run done).1) d_named c_named differ.symm
  have d_answer := answer_exchange (b := (b.run done).1) c_named d_named differ
  constructor
  · rw [(b.run_append done _).1, (b.run_append done _).1]
    exact exchanged.1.find? symbol
  · simp only [moments_append, moments, answersFor_append, answersFor_cons, Moment.step_mk, c_answer,
      d_answer, c_named, d_named, Option.some_inj, exchanged.2 symbol]
    -- At most one of the two answers is for the symbol.
    by_cases at_first : first = symbol
    · simp [at_first, show second ≠ symbol from fun eq => differ (at_first.trans eq.symm)]
    · simp [at_first]

end

/-! ## A session from its start -/

/-- A symbol after a run, seen through the book and on its own. -/
structure Isolated (b : Book) (symbol : String) (commands : List Command) (s : Session) : Prop where
  ran : standalone b.defaultMethod symbol commands = .ok s
  absent_iff :
    (b.run commands).1.find? symbol = none ↔ ∀ c ∈ sinceClear commands, c.symbol? ≠ some symbol
  position_eq : ∀ p, (b.run commands).1.find? symbol = some p → p = s.position
  /-- Whatever the run is asked next for the symbol is answered by the position on its own. -/
  answer_eq : ∀ c rest request, c.symbol? = some symbol → c.request? = some request →
    ((b.run (commands ++ c :: rest)).2[commands.length]?).map Step.answer
      = some (s.position.reply request)

theorem Holds.isolated {b : Book} {symbol : String} {commands : List Command} {s : Session}
    (holds : b.Holds symbol commands s) : b.Isolated symbol commands s := by
  have position := holds.positionOrNew
  obtain ⟨ran, _, found⟩ := holds
  refine ⟨ran, ?_, fun p at_end => ?_, fun c rest request named asked => ?_⟩
  · rw [found, ← lifetime_eq_nil_iff]
    simp
  · rw [found] at at_end
    split at at_end <;> cases at_end
    rfl
  · have next : (b.run (commands ++ c :: rest)).2[commands.length]?
        = some ((b.run commands).1.step c) := by
      rw [(b.run_append commands _).2, ← b.length_steps commands,
        List.getElem?_append_right le_rfl, Nat.sub_self]
      rfl
    rw [next, Option.map_some, (step_of_symbol named).1, asked, position]
    rfl

/-- After every run each symbol has the position that it has on its own and is answered from it, every
position is filed under its symbol, and commands for two symbols can be exchanged. -/
theorem run_isolated (settings : Settings) (commands : List Command) :
    let b := (ofSettings settings).value
    (∀ symbol, ∃ s, b.Isolated symbol commands s) ∧
      Filing.run b.defaultMethod [] commands = Filing.ofPositions (b.run commands).1.positions ∧
      ((b.run commands).1.positions.map Position.symbol).Nodup ∧
      ∀ c d first second rest, c.symbol? = some first → d.symbol? = some second → first ≠ second →
        ∀ symbol,
          (b.run (commands ++ c :: d :: rest)).1.find? symbol
              = (b.run (commands ++ d :: c :: rest)).1.find? symbol ∧
            answersFor symbol (b.moments (commands ++ c :: d :: rest))
              = answersFor symbol (b.moments (commands ++ d :: c :: rest)) := by
  intro b
  refine ⟨fun symbol => ?_, Filing.run_ofPositions b commands, nodup_run (b := b) List.nodup_nil commands, ?_⟩
  · obtain ⟨s, holds⟩ := exists_holds (b := b) rfl symbol commands
    exact ⟨s, holds.isolated⟩
  · intro c d first second rest c_named d_named differ symbol
    exact run_exchange c_named d_named differ commands rest symbol

end Book

end CostBasis
