import Bindle.Build.Error
import Bindle.Text.Shown

/-!
# Taps

`Hooks` holds the taps of both hooks, in the order in which they were added.  `Hooks.call` calls the
taps of a hook in this order, up to the first that fails.
-/

namespace Bindle

structure Hooks (σ : Type) where
  run : List (Tap σ) := []
  done : List (Tap σ) := []

namespace Hooks

variable {σ : Type}

def taps (h : Hooks σ) : Hook → List (Tap σ)
  | .run => h.run
  | .done => h.done

def tap (h : Hooks σ) (hook : Hook) (t : Tap σ) : Hooks σ :=
  match hook with
  | .run => { h with run := h.run ++ [t] }
  | .done => { h with done := h.done ++ [t] }

def names (h : Hooks σ) (hook : Hook) : List String := (h.taps hook).map Tap.name

/-- the first tap that fails, with its message -/
def callAll : List (Tap σ) → σ → Option (String × String) × σ
  | [], s => (none, s)
  | t :: ts, s =>
    match t.callback s with
    | (some message, s') => (some (t.name, message), s')
    | (none, s') => callAll ts s'

def call (h : Hooks σ) (hook : Hook) (s : σ) : Except BuildError Unit × σ :=
  match callAll (h.taps hook) s with
  | (some (tap, message), s') => (.error (.hook hook tap message), s')
  | (none, s') => (.ok (), s')

def shown (h : Hooks σ) : String :=
  "HookRegistry \x7b run: " ++ Text.shownList ((h.names .run).map Text.shown) ++ ", done: " ++
    Text.shownList ((h.names .done).map Text.shown) ++ " \x7d"

end Hooks

end Bindle
