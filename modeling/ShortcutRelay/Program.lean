/-!
# Programs

A program asks its surroundings for things and goes on with the answers. What an answer is made
of, and what happens between two requests, is left to the one who runs it.

* `Interface` : the requests that programs may make, each with the type of its answer;
* `Program` : a program over an interface, a monad;
* `Program.run` : the result of a program whose requests are answered in another monad;
* `Program.translate` : a program whose requests are made over another interface.
-/

namespace ShortcutRelay

/-- Requests, each with the type of its answer. -/
structure Interface where
  Request : Type
  Answer : Request → Type

/-- A program that ends with a result. -/
inductive Program (I : Interface) (α : Type)
  | done (result : α)
  | ask (request : I.Request) (next : I.Answer request → Program I α)

namespace Program

variable {I J : Interface} {α β : Type}

def bind : Program I α → (α → Program I β) → Program I β
  | done a, f => f a
  | ask r next, f => ask r fun answer => (next answer).bind f

instance : Monad (Program I) where
  pure := done
  bind := bind

@[simp] theorem pure_eq (a : α) : (pure a : Program I α) = done a := rfl

@[simp] theorem done_bind (a : α) (f : α → Program I β) : (done a >>= f) = f a := rfl

@[simp] theorem ask_bind (r : I.Request) (next : I.Answer r → Program I α)
    (f : α → Program I β) : (ask r next >>= f) = ask r fun answer => next answer >>= f := rfl

theorem map_id (p : Program I α) : id <$> p = p := by
  induction p with
  | done a => rfl
  | ask r next ih => exact congrArg (ask r) (funext ih)

theorem bind_assoc {γ : Type} (p : Program I α) (f : α → Program I β) (g : β → Program I γ) :
    p >>= f >>= g = p >>= fun a => f a >>= g := by
  induction p with
  | done a => rfl
  | ask r next ih => exact congrArg (ask r) (funext ih)

instance : LawfulMonad (Program I) :=
  LawfulMonad.mk' (Program I) map_id (fun _ _ => rfl) bind_assoc

def request (r : I.Request) : Program I (I.Answer r) :=
  ask r done

def run {m : Type → Type} [Monad m] (answer : (r : I.Request) → m (I.Answer r)) :
    Program I α → m α
  | done a => pure a
  | ask r next => do (next (← answer r)).run answer

/-- The program whose requests are made over another interface. -/
def translate (f : (r : I.Request) → Program J (I.Answer r)) (p : Program I α) : Program J α :=
  p.run f

end Program

end ShortcutRelay
