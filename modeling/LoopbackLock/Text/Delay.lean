import LoopbackLock.Text.Numeral

/-!
# Delays as text

A number of milliseconds below one second is written in milliseconds, a longer one in seconds with
the zeros at the end of its fraction dropped; the delay of no length has a wording of its own.
-/

namespace LoopbackLock.Text

/-- The three digits of a number of thousandths, without the zeros at the end. -/
def thousandths (n : Nat) : List Char :=
  [n / 100 % 10, n / 10 % 10, n % 10].reverse.dropWhile (· = 0) |>.reverse.map digitChar

/-- A delay of so many milliseconds. -/
def delay (ms : Nat) : String :=
  if ms = 0 then "0ns"
  else if ms < 1000 then decimal ms ++ "ms"
  else
    match thousandths (ms % 1000) with
    | [] => decimal (ms / 1000) ++ "s"
    | fraction => decimal (ms / 1000) ++ "." ++ String.ofList fraction ++ "s"

end LoopbackLock.Text
