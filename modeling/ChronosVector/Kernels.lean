import ChronosVector.Types
import ChronosVector.Lib.Cells

/-!
# Distance kernels and the quantizer

`kernels.cpp` over an abstract float type: `FloatArith` lists the operations the
kernels use and assumes no law about them, so the definitions read the same for
rounded floats and for exact numbers. Vectors are pointers, read through an
offset; sums run over the components in index order.
-/

namespace ChronosVector

/-- The float operations of the kernels. `lround` rounds half away from zero,
`ofBits` reads four bytes as a float. -/
class FloatArith (F : Type) extends Zero F, Add F, Sub F, Mul F, Div F, Neg F where
  lt : F → F → Bool
  le : F → F → Bool
  sqrt : F → F
  ofInt : Int → F
  lround : F → Int
  ofBits : UInt32 → F

variable {F : Type} [FloatArith F]

/-- One element of the vector column, by the ring's dtype. -/
inductive Elem (F : Type)
  | f32 (x : F)
  | i8 (q : Int8)
  deriving DecidableEq

instance : Inhabited (Elem F) := ⟨.f32 0⟩

/-- The element where FLOAT32 is expected. -/
def Elem.float : Elem F → F
  | .f32 x => x
  | .i8 q => FloatArith.ofInt q.toInt

/-- The element where INT8 is expected. -/
def Elem.int8 : Elem F → Int8
  | .i8 q => q
  | .f32 _ => 0

/-- `Σ v[i] * w[i]` over `dim` components. -/
def dot (v w : Nat → F) (dim : Nat) : F :=
  (List.range dim).foldl (fun acc i => acc + v i * w i) 0

/-- `L2NormF32`. -/
def l2NormF32 (v : Nat → F) (dim : Nat) : F := FloatArith.sqrt (dot v v dim)

/-! ## FLOAT32 rows

One row of each chunk kernel; a chunk is the map over its rows. -/

/-- A row of `CosineF32Chunk`. -/
def cosineF32 (row : Nat → F) (rowNorm : F) (dim : Nat) (q : Nat → F) (qn : F) : F :=
  if FloatArith.lt 0 qn then
    if FloatArith.lt 0 rowNorm then dot row q dim / (rowNorm * qn) else 0
  else 0

/-- A row of `EuclideanSqF32Chunk`. -/
def euclideanSqF32 (row : Nat → F) (rowNorm : F) (dim : Nat) (q : Nat → F) (qn : F) : F :=
  let sq := rowNorm * rowNorm + qn * qn - FloatArith.ofInt 2 * dot row q dim
  if FloatArith.lt sq 0 then 0 else sq

/-! ## INT8 -/

/-- `|v[i]|` as the quantizer forms it. -/
def absF32 (x : F) : F := if FloatArith.lt x 0 then -x else x

/-- First pass of `QuantizeF32ToI8`. -/
def maxAbs (v : Nat → F) (dim : Nat) : F :=
  (List.range dim).foldl (fun m i => if FloatArith.lt m (absF32 (v i)) then absF32 (v i) else m) 0

/-- The clamp and the rounding of one component. -/
def quantizeOne (invScale x : F) : Int8 :=
  let scaled := x * invScale
  let scaled := if FloatArith.lt (FloatArith.ofInt 127) scaled then FloatArith.ofInt 127 else scaled
  let scaled :=
    if FloatArith.lt scaled (FloatArith.ofInt (-127)) then FloatArith.ofInt (-127) else scaled
  Int8.ofInt (FloatArith.lround scaled)

/-- `QuantizeF32ToI8`: the quantized components and the scale. A running maximum
that never rose above zero is the zero vector. -/
def quantizeF32ToI8 (v : Nat → F) (dim : Nat) : (Nat → Int8) × F :=
  let m := maxAbs v dim
  if FloatArith.lt 0 m then
    (fun i => quantizeOne (FloatArith.ofInt 127 / m) (v i), m / FloatArith.ofInt 127)
  else (fun _ => 0, 0)

/-- The 32-bit accumulator: `x` reduced to two's complement. -/
def wrapInt32 (x : Int) : Int := x.bmod (2 ^ 32)

/-- `dot_i8`. -/
def dotI8 (a b : Nat → Int8) (dim : Nat) : Int :=
  (List.range dim).foldl (fun acc i => wrapInt32 (acc + (a i).toInt * (b i).toInt)) 0

/-- A row of `CosineI8Chunk`. -/
def cosineI8 (row : Nat → Int8) (scale rowNorm : F) (dim : Nat) (q : Nat → Int8)
    (qScale qNorm : F) : F :=
  if FloatArith.le qNorm 0 || FloatArith.le qScale 0 then 0
  else if FloatArith.le rowNorm 0 || FloatArith.le scale 0 then 0
  else
    FloatArith.ofInt (dotI8 row q dim) * scale * qScale * (FloatArith.ofInt 1 / qNorm / rowNorm)

/-- A row of `EuclideanSqI8Chunk`. -/
def euclideanSqI8 (row : Nat → Int8) (scale rowNorm : F) (dim : Nat) (q : Nat → Int8)
    (qScale qNorm : F) : F :=
  let sq := rowNorm * rowNorm + qNorm * qNorm
    - FloatArith.ofInt 2 * (FloatArith.ofInt (dotI8 row q dim) * scale * qScale)
  if FloatArith.lt sq 0 then 0 else sq

end ChronosVector
