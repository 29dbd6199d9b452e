import Reckoner.Value.Promotion

/-!
# Bits

An integer has a bit at every place: a natural number has clear bits in front, and `-n - 1` has the
opposite bits of `n`. The Boolean operations combine the bits of integers place by place. Complements,
shifts and rotations act on the two's complement pattern that an integer has in the width of its order.
Doubles have no bits.
-/

namespace Reckoner

/-- Combines the bits of two natural numbers, also the clear ones in front. -/
def combineNats (f : Bool → Bool → Bool) (m n : Nat) : Int :=
  if f false false then .negSucc (Nat.bitwise (fun x y => !f x y) m n) else .ofNat (Nat.bitwise f m n)

/-- Combines the bits of two integers place by place. -/
def combineBits (f : Bool → Bool → Bool) : Int → Int → Int
  | .ofNat m, .ofNat n => combineNats f m n
  | .ofNat m, .negSucc n => combineNats (fun x y => f x !y) m n
  | .negSucc m, .ofNat n => combineNats (fun x y => f (!x) y) m n
  | .negSucc m, .negSucc n => combineNats (fun x y => f (!x) !y) m n

namespace Value

/-- Applies an operation to two values that meet at an integer order. -/
def onIntegers (f : (order : IntOrder) → (m n : Int) → order.Fits n → Except Fault Value)
    (a b : Value) : Except Fault Value :=
  match a.matchOrders b with
  | .ints o m n _ hn => f o m n hn
  | .doubles .. => .error (.calculation .integerNeeded)

/-- Combines the bits of two values that meet at an integer order. -/
def onBits (f : Bool → Bool → Bool) : Value → Value → Except Fault Value :=
  onIntegers fun o m n _ => make o (combineBits f m n)

def bitAnd : Value → Value → Except Fault Value := onBits (· && ·)

def bitOr : Value → Value → Except Fault Value := onBits (· || ·)

def bitXor : Value → Value → Except Fault Value := onBits (· ^^ ·)

def bitNot : Value → Except Fault Value
  | .int o n _ => make o (o.ofPattern (~~~ o.pattern n))
  | .double _ => .error (.calculation .integerNeeded)

/-- Applies an operation that moves bits by a count. -/
def onCount (f : (order : IntOrder) → Int → Nat → Except Fault Value) (a b : Value) :
    Except Fault Value :=
  onIntegers (fun o m n hn => do f o m (← count (.int o n hn))) a b

/-- Shifts left; bits that leave the pattern are lost. The count stays below the width. -/
def shiftLeft : Value → Value → Except Fault Value :=
  onCount fun o m k =>
    if o.width ≤ k then .error (.calculation .overflow)
    else make o (o.ofPattern (o.pattern m <<< k))

/-- Shifts right, keeping the sign. The count stays below the width. -/
def shiftRight : Value → Value → Except Fault Value :=
  onCount fun o m k =>
    if o.width ≤ k then .error (.calculation .overflow) else make o (m >>> k)

/-- Shifts left, the bits that leave the pattern coming in again on the right. -/
def rotateLeft : Value → Value → Except Fault Value :=
  onCount fun o m k => make o (o.ofPattern ((o.pattern m).rotateLeft k))

/-- Shifts right, the bits that leave the pattern coming in again on the left. -/
def rotateRight : Value → Value → Except Fault Value :=
  onCount fun o m k => make o (o.ofPattern ((o.pattern m).rotateRight k))

end Value

end Reckoner
