import Bindle.Files.Content
import Bindle.Script.Call

/-!
# What a build asks

A build that is not finished can do one thing only: ask.  It asks whether a path names a file, for
the text in a file, or for the calls in a source.  A `Dialogue α` is such a build with a result in
`α`; nothing but the answers can have an influence on it.

* `Dialogue.run`        the result, with answers that a monad gives;
* `Dialogue.result`     the result, with answers known beforehand;
* `Dialogue.questions`  everything that is asked on the way to it.
-/

namespace Bindle

/-- a source in which the calls were found; it can be written with new values in the calls -/
structure SyntaxTree where
  calls : List Script.Call
  render : List Script.Call → String

def Script.tree (s : Script) : SyntaxTree :=
  ⟨s.calls, fun calls => Script.render { s with calls := calls }⟩

/-- a way to find the calls of a source -/
abbrev Parser := String → Except Script.SyntaxError SyntaxTree

def Script.parser : Parser := fun source => (Script.parse source).map Script.tree

inductive Question where
  | isFile (p : Path)
  | text (p : Path)
  | parse (source : String)
  deriving DecidableEq, Inhabited

abbrev Question.Answer : Question → Type
  | isFile _ => Bool
  | text _ => Except FileError String
  | parse _ => Except Script.SyntaxError SyntaxTree

inductive Dialogue (α : Type) where
  | done (a : α)
  | ask (q : Question) (next : q.Answer → Dialogue α)

namespace Dialogue

variable {α β : Type}

def bind : Dialogue α → (α → Dialogue β) → Dialogue β
  | done a, f => f a
  | ask q next, f => ask q (fun answer => (next answer).bind f)

instance : Monad Dialogue where
  pure := done
  bind := bind

/-- asks one question -/
def answerTo (q : Question) : Dialogue q.Answer := ask q done

/-! ## answers -/

def run {m : Type → Type} [Monad m] (answer : (q : Question) → m q.Answer) : Dialogue α → m α
  | done a => pure a
  | ask q next => do
    let a ← answer q
    (next a).run answer

def result (answer : (q : Question) → q.Answer) : Dialogue α → α
  | done a => a
  | ask q next => (next (answer q)).result answer

def questions (answer : (q : Question) → q.Answer) : Dialogue α → List Question
  | done _ => []
  | ask q next => q :: (next (answer q)).questions answer

/-! ## laws -/

@[simp] theorem done_bind (a : α) (f : α → Dialogue β) : (done a).bind f = f a := rfl

@[simp] theorem bind_done (d : Dialogue α) : d.bind done = d := by
  induction d with
  | done a => rfl
  | ask q next ih => simp only [bind, ih]

theorem bind_assoc {γ : Type} (d : Dialogue α) (f : α → Dialogue β) (g : β → Dialogue γ) :
    (d.bind f).bind g = d.bind (fun a => (f a).bind g) := by
  induction d with
  | done a => rfl
  | ask q next ih => simp only [bind, ih]

instance : LawfulMonad Dialogue :=
  LawfulMonad.mk' Dialogue (fun d => bind_done d) (fun _ _ => rfl) (fun d f g => bind_assoc d f g)

@[simp] theorem result_done (answer : (q : Question) → q.Answer) (a : α) :
    (done a).result answer = a := rfl

@[simp] theorem result_bind (answer : (q : Question) → q.Answer) (d : Dialogue α)
    (f : α → Dialogue β) : (d.bind f).result answer = (f (d.result answer)).result answer := by
  induction d with
  | done a => rfl
  | ask q next ih => simp only [bind, result, ih]

@[simp] theorem questions_bind (answer : (q : Question) → q.Answer) (d : Dialogue α)
    (f : α → Dialogue β) :
    (d.bind f).questions answer =
      d.questions answer ++ (f (d.result answer)).questions answer := by
  induction d with
  | done a => rfl
  | ask q next ih => simp only [bind, questions, result, ih, List.cons_append]

end Dialogue

end Bindle
