import MmIot.Lib.Transition

/-! `mmhal_wlan_set_spi_irq_enabled` of `morsemicro_spi.c` and `morsemicro_sdio.c`,
one step of a call at a time, with the chip driving its interrupt line in between. -/

namespace MmIot

inductive BusBackend where
  | spi | sdio
  deriving DecidableEq

/-- What a call with `true` does: sampling the line may put a handler call first. -/
inductive IrqStep where
  | sample | callHandler | arm
  deriving DecidableEq

/-- The steps in the order the source has them. -/
def BusBackend.enableSteps : BusBackend → List IrqStep
  | .spi => [.sample, .arm]
  | .sdio => [.arm, .sample]

/-- `todo` is what is left of a running call, and `enabled` the argument of the last
one that returned. `handled` tells whether the handler was called since the line
last became active. -/
structure IrqState where
  todo : List IrqStep
  line : Bool
  armed : Bool
  registered : Bool
  enabled : Bool
  handled : Bool

inductive IrqAction where
  | assert | deassert
  | setEnabled (enabled : Bool)
  | advance
  deriving DecidableEq

def IrqStep.exec (rest : List IrqStep) (s : IrqState) : IrqStep → IrqState
  | .sample => { s with todo := if s.line then .callHandler :: rest else rest }
  | .callHandler => { s with todo := rest, handled := s.handled || s.registered }
  | .arm => { s with todo := rest, armed := true }

/-- One step of the call, which returns when nothing is left to do. -/
def IrqState.advance (s : IrqState) : Option IrqState :=
  match s.todo with
  | [] => none
  | step :: rest =>
    let s := step.exec rest s
    some { s with enabled := s.enabled || s.todo.isEmpty }

/-- An armed interrupt calls the handler on the line's transition to active only. -/
def irqStep (backend : BusBackend) (s : IrqState) : IrqAction → Option IrqState
  | .assert =>
    if s.line then none else some { s with line := true, handled := s.armed && s.registered }
  | .deassert => if s.line then some { s with line := false } else none
  | .setEnabled enabled =>
    if s.todo ≠ [] then none
    else if enabled then some { s with todo := backend.enableSteps }
    else some { s with armed := false, enabled := false }
  | .advance => s.advance

/-- After bus initialisation, with a handler registered; the line may be anything. -/
structure IrqStart (s : IrqState) : Prop where
  todo : s.todo = []
  armed : s.armed = false
  enabled : s.enabled = false
  registered : s.registered = true

end MmIot
