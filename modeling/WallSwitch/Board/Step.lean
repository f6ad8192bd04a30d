import WallSwitch.Board.Command

/-!
This module contains the way in which the parts of a device act: a step goes on to the next state and
gives commands. A request does the same, and answers whoever makes it.
-/

namespace WallSwitch

/--
How a part with states in `σ` acts: its next state, and its commands in order.
-/
def Step (σ : Type) : Type := σ → σ × List Command

namespace Step

variable {σ τ : Type}

def state (step : Step σ) (s : σ) : σ := (step s).1

def commands (step : Step σ) (s : σ) : List Command := (step s).2

def skip : Step σ := fun s => (s, [])

/--
Gives commands that depend on the state alone.
-/
def emit (commands : σ → List Command) : Step σ := fun s => (s, commands s)

def update (f : σ → σ) : Step σ := fun s => (f s, [])

def andThen (first second : Step σ) : Step σ := fun s =>
  let (s₁, cs₁) := first s
  let (s₂, cs₂) := second s₁
  (s₂, cs₁ ++ cs₂)

/--
The step that the state calls for.
-/
def choose (f : σ → Step σ) : Step σ := fun s => f s s

def forEach {α : Type} (f : α → Step σ) : List α → Step σ
  | [] => skip
  | a :: as => (f a).andThen (forEach f as)

/--
A step of a part within a whole.
-/
def within (get : τ → σ) (set : τ → σ → τ) (step : Step σ) : Step τ := fun t =>
  let (s, cs) := step (get t)
  (set t s, cs)

section Laws

variable (s : σ) (first second : Step σ)

@[simp] theorem state_skip : (skip : Step σ).state s = s := rfl

@[simp] theorem commands_skip : (skip : Step σ).commands s = [] := rfl

@[simp] theorem state_emit (f : σ → List Command) : (emit f).state s = s := rfl

@[simp] theorem commands_emit (f : σ → List Command) : (emit f).commands s = f s := rfl

@[simp] theorem state_update (f : σ → σ) : (update f).state s = f s := rfl

@[simp] theorem commands_update (f : σ → σ) : (update f).commands s = [] := rfl

@[simp] theorem state_choose (f : σ → Step σ) : (choose f).state s = (f s).state s := rfl

@[simp] theorem commands_choose (f : σ → Step σ) : (choose f).commands s = (f s).commands s := rfl

@[simp]
theorem state_andThen : (first.andThen second).state s = second.state (first.state s) := rfl

@[simp]
theorem commands_andThen :
    (first.andThen second).commands s = first.commands s ++ second.commands (first.state s) := rfl

@[simp]
theorem state_within (get : τ → σ) (set : τ → σ → τ) (step : Step σ) (t : τ) :
    (step.within get set).state t = set t (step.state (get t)) := rfl

@[simp]
theorem commands_within (get : τ → σ) (set : τ → σ → τ) (step : Step σ) (t : τ) :
    (step.within get set).commands t = step.commands (get t) := rfl

end Laws

end Step

/--
How a part with states in `σ` meets a request: its answer, its next state, and its commands in order.
-/
def Request (σ α : Type) : Type := σ → α × σ × List Command

namespace Request

variable {σ α : Type}

def answer (request : Request σ α) (s : σ) : α := (request s).1

def step (request : Request σ α) : Step σ := fun s => (request s).2

end Request

end WallSwitch
