import Crawler.Hardware.Fault

/-! The output that powers the spindle or the laser: a switch and a duty between zero and one. The
line to it may go down after a number of calls. -/
namespace Crawler.Hardware

structure SpindleOutput where
  enabled : Bool
  duty : Float
  switching : List Bool
  /-- How many calls still arrive, if the line goes down at all. -/
  callsLeft : Option Nat
deriving DecidableEq, Repr

namespace SpindleOutput

def fresh (callsLeft : Option Nat) : SpindleOutput := ⟨false, 0, [], callsLeft⟩

/-- The output after one more call on its line, if the call arrives. -/
def call? (output : SpindleOutput) : Option SpindleOutput :=
  match output.callsLeft with
  | none => some output
  | some 0 => none
  | some (n + 1) => some { output with callsLeft := some n }

def switch (on : Bool) (output : SpindleOutput) : Except Fault Unit × SpindleOutput :=
  match output.call? with
  | none => (.error .outputOffline, output)
  | some output => (.ok (), { output with enabled := on, switching := output.switching ++ [on] })

def isDuty (duty : Float) : Bool := 0 ≤ duty && duty ≤ 1

def adjust (duty : Float) (output : SpindleOutput) : Except Fault Unit × SpindleOutput :=
  match output.call? with
  | none => (.error .outputOffline, output)
  | some output =>
    if isDuty duty then (.ok (), { output with duty }) else (.error (.dutyOutOfRange duty), output)

end SpindleOutput

end Crawler.Hardware
