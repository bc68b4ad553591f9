import ShowerTrack.Calorimeter.Profile

/-!
# Shower shapes

The transverse distribution of a shower is a sum of two components, each with an
amplitude and a slope. Its integral over a quadrant is known in closed form, and
the content of a unit cell is a second difference of it.
-/

set_option autoImplicit false

namespace ShowerTrack

structure ShowerShape where
  amplitudes : Float × Float
  slopes : Float × Float

namespace ShowerShape

def crystal : ShowerShape := ⟨(0.85, 0.15), (0.18, 0.75)⟩

def glass : ShowerShape := ⟨(0.87, 0.13), (0.16, 0.70)⟩

def component (x y a b : Float) : Float :=
  let r := (b * b + x * x + y * y).sqrt
  a * ((x / b).atan + (y / b).atan + (x * y / (b * r)).atan)

def pi : Float := 3.14159265358979323846

def cumulative (s : ShowerShape) (x y : Float) : Float :=
  let sum := 0 + component x y s.amplitudes.1 s.slopes.1 +
    component x y s.amplitudes.2 s.slopes.2
  0.25 + sum / (2 * pi)

def cellFraction (s : ShowerShape) (dx dy : Float) : Float :=
  s.cumulative (dx + 0.5) (dy + 0.5) - s.cumulative (dx - 0.5) (dy + 0.5) -
    s.cumulative (dx + 0.5) (dy - 0.5) + s.cumulative (dx - 0.5) (dy - 0.5)

def roundedFraction (s : ShowerShape) (dx dy : Float32) : Float32 :=
  (s.cellFraction dx.toFloat dy.toFloat).toFloat32

end ShowerShape

namespace Profile

def ofShapes (glass crystal : ShowerShape) : Profile Float32 :=
  ofFractions fun
    | .glass => glass.roundedFraction
    | .crystal => crystal.roundedFraction

def standard : Profile Float32 := ofShapes .glass .crystal

end Profile

end ShowerTrack
