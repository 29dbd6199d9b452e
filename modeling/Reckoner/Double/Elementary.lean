import Reckoner.Double.Arithmetic

/-!
# Elementary functions

Roots, powers, exponentials, logarithms and the circular and hyperbolic functions are taken from the
processor's library through the bit pattern. Nothing is assumed about them but that they give a
double; angles are converted by one multiplication with a rounded factor.
-/

namespace Reckoner

namespace Double

def toFloat (x : Double) : Float := Float.ofBits x.toBits

def ofFloat (x : Float) : Double := ofBits x.toBits

/-- Carries a library function over to doubles. -/
def through (f : Float → Float) (x : Double) : Double := ofFloat (f x.toFloat)

def sin : Double → Double := through Float.sin
def cos : Double → Double := through Float.cos
def tan : Double → Double := through Float.tan
def sinh : Double → Double := through Float.sinh
def cosh : Double → Double := through Float.cosh
def tanh : Double → Double := through Float.tanh
def asin : Double → Double := through Float.asin
def acos : Double → Double := through Float.acos
def atan : Double → Double := through Float.atan
def asinh : Double → Double := through Float.asinh
def acosh : Double → Double := through Float.acosh
def atanh : Double → Double := through Float.atanh
def sqrt : Double → Double := through Float.sqrt
def cbrt : Double → Double := through Float.cbrt
def log10 : Double → Double := through Float.log10
def log2 : Double → Double := through Float.log2
def ln : Double → Double := through Float.log
def exp : Double → Double := through Float.exp

/-- The power `x ^ y`. -/
def pow (x y : Double) : Double := ofFloat (Float.pow x.toFloat y.toFloat)

/-- The double nearest to the circle's ratio of circumference to diameter. -/
def pi : Double := ofBits 0x400921fb54442d18

/-- The double nearest to the base of the natural logarithm. -/
def e : Double := ofBits 0x4005bf0a8b145769

/-- Degrees to radians. -/
def toRadians (x : Double) : Double := x * (pi / ofInt 180)

/-- Radians to degrees. -/
def toDegrees (x : Double) : Double := x * (ofInt 180 / pi)

end Double

end Reckoner
