import Bindle.Component.Basic
import Bindle.Hook.Taps

/-!
# Plugins

A plugin adds taps to the hooks of a build.  Those that come along write notes about builds; where
the notes go is up to whoever holds the state of the callbacks.
-/

namespace Bindle

structure Plugin (σ : Type) where
  name : String
  taps : List (Hook × Tap σ)

namespace Plugin

variable {σ : Type}

def applyTo (p : Plugin σ) (h : Hooks σ) : Hooks σ := p.taps.foldl (fun h t => h.tap t.1 t.2) h

/-! ## plugins that come along -/

def metadata (name description : String) : Metadata := ⟨name, version, .plugin, some description⟩

/-- a plugin that writes one note at each of some hooks -/
def noting (note : String → σ → σ) (name description : String) (notes : List (Hook × String)) :
    Factory (Plugin σ) :=
  .plain (metadata name description)
    ⟨name, notes.map (fun n => (n.1, ⟨name, fun s => (none, note n.2 s)⟩))⟩

def startLog (note : String → σ → σ) : Factory (Plugin σ) :=
  noting note "build-start-log" "Log when a build starts" [(.run, "compilation started")]

def doneLog (note : String → σ → σ) : Factory (Plugin σ) :=
  noting note "build-done-log" "Log when a build finishes" [(.done, "compilation finished")]

/-- the times of the two notes are the duration -/
def timer (note : String → σ → σ) : Factory (Plugin σ) :=
  noting note "build-timer" "Log the duration of each build"
    [(.run, "build timer started"), (.done, "build timer stopped")]

def builtins (note : String → σ → σ) : Registry (Plugin σ) :=
  Registry.ofList [startLog note, doneLog note, timer note]

end Plugin

end Bindle
