import Mathlib
import ShowerTrack.Alignment
import ShowerTrack.Proofs.Exact

/-!
# Rotations

A frame turns a point about x, then y, then z, and shifts it. With the sine and the cosine of an
angle on the unit circle a turn is a rotation of space: points keep their distances, there is a way
back, and the hits of a detector are moved as one.
-/

set_option autoImplicit false

namespace ShowerTrack

open Matrix

namespace Point

variable {α : Type}

def vec (p : Point α) : Fin 3 → α := ![p.x, p.y, p.z]

def ofVec (v : Fin 3 → α) : Point α := ⟨v 0, v 1, v 2⟩

@[simp] theorem ofVec_vec (p : Point α) : ofVec p.vec = p := rfl

@[simp] theorem vec_ofVec (v : Fin 3 → α) : (ofVec v).vec = v := by
  funext i
  fin_cases i <;> rfl

variable [Exact α]

def distance (p q : Point α) : α :=
  Exact.sqrt ((p.x - q.x) ^ 2 + (p.y - q.y) ^ 2 + (p.z - q.z) ^ 2)

theorem distance_eq (p q : Point α) :
    p.distance q = Exact.sqrt ((p.vec - q.vec) ⬝ᵥ (p.vec - q.vec)) := by
  rw [distance, vec3_dotProduct]
  simp only [vec, Pi.sub_apply, cons_val, sq]

theorem vec_shift (offset p : Point α) : (shift offset p).vec = p.vec + offset.vec := by
  funext i
  fin_cases i <;> rfl

end Point

section Rotation

variable {α : Type} [Exact α]

/-- The rotation about an axis that takes the next axis towards the one after it. -/
def rotation (axis : Fin 3) (sin cos : α) : Matrix (Fin 3) (Fin 3) α := fun i j =>
  if i = axis ∨ j = axis then if i = j then 1 else 0
  else if i = j then cos
  else if j = i + 1 then -sin
  else sin

theorem vec_turnX (sin cos : α) (p : Point α) :
    (turnX sin cos p).vec = rotation 0 sin cos *ᵥ p.vec := by
  funext i
  rw [mulVec, vec3_dotProduct]
  fin_cases i <;> simp [turnX, Point.vec, rotation] <;> ring

theorem vec_turnY (sin cos : α) (p : Point α) :
    (turnY sin cos p).vec = rotation 1 sin cos *ᵥ p.vec := by
  funext i
  rw [mulVec, vec3_dotProduct]
  fin_cases i <;> simp [turnY, Point.vec, rotation] <;> ring

theorem vec_turnZ (sin cos : α) (p : Point α) :
    (turnZ sin cos p).vec = rotation 2 sin cos *ᵥ p.vec := by
  funext i
  rw [mulVec, vec3_dotProduct]
  fin_cases i <;> simp [turnZ, Point.vec, rotation] <;> ring

theorem det_rotation (axis : Fin 3) (sin cos : α) :
    (rotation axis sin cos).det = sin ^ 2 + cos ^ 2 := by
  rw [det_fin_three]
  fin_cases axis <;> simp [rotation] <;> ring

theorem transpose_rotation_mul (axis : Fin 3) (sin cos : α) :
    (rotation axis sin cos)ᵀ * rotation axis sin cos =
      diagonal fun i => if i = axis then 1 else sin ^ 2 + cos ^ 2 := by
  ext i j
  rw [mul_apply, Fin.sum_univ_three]
  fin_cases axis <;> fin_cases i <;> fin_cases j <;> simp [rotation] <;> ring

theorem rotation_mem {sin cos : α} (h : sin ^ 2 + cos ^ 2 = 1) (axis : Fin 3) :
    rotation axis sin cos ∈ specialOrthogonalGroup (Fin 3) α := by
  rw [mem_specialOrthogonalGroup_iff, mem_orthogonalGroup_iff', det_rotation, h,
    transpose_rotation_mul, h]
  simp

theorem dotProduct_mulVec_self {A : Matrix (Fin 3) (Fin 3) α} (h : Aᵀ * A = 1) (v : Fin 3 → α) :
    (A *ᵥ v) ⬝ᵥ (A *ᵥ v) = v ⬝ᵥ v := by
  rw [dotProduct_mulVec, vecMul_mulVec, h, vecMul_one]

end Rotation

namespace DetectorFrame

variable {α : Type} [ExactElementary α]

def about (f : DetectorFrame α) (axis : Fin 3) : Matrix (Fin 3) (Fin 3) α :=
  rotation axis (Elementary.sin (f.tilt.vec axis)) (Elementary.cos (f.tilt.vec axis))

def turn (f : DetectorFrame α) : Matrix (Fin 3) (Fin 3) α := f.about 2 * f.about 1 * f.about 0

def restore (f : DetectorFrame α) (p : Point α) : Point α :=
  .ofVec (f.turnᵀ *ᵥ (p.vec - f.offset.vec))

theorem vec_transform (f : DetectorFrame α) (p : Point α) :
    (f.transform p).vec = f.turn *ᵥ p.vec + f.offset.vec := by
  rw [transform, Point.vec_shift, vec_turnZ, vec_turnY, vec_turnX, mulVec_mulVec, mulVec_mulVec]
  rfl

/-- Three rotations, which are orthogonal and of determinant 1, and a shift: with a way back, and
with all distances kept. -/
structure Rigid (f : DetectorFrame α) : Prop where
  rotations : ∀ axis, f.about axis ∈ specialOrthogonalGroup (Fin 3) α
  turned : ∀ p, (f.transform p).vec =
    f.about 2 *ᵥ (f.about 1 *ᵥ (f.about 0 *ᵥ p.vec)) + f.offset.vec
  origin : f.transform ⟨0, 0, 0⟩ = f.offset
  distance : ∀ p q, (f.transform p).distance (f.transform q) = p.distance q
  leftInverse : Function.LeftInverse f.restore f.transform
  rightInverse : Function.RightInverse f.restore f.transform

section

variable {f : DetectorFrame α} (h : f.turn ∈ specialOrthogonalGroup (Fin 3) α)

include h

theorem transpose_turn_mul : f.turnᵀ * f.turn = 1 :=
  (mem_orthogonalGroup_iff' _ _).mp (mem_specialOrthogonalGroup_iff.mp h).1

theorem turn_mul_transpose : f.turn * f.turnᵀ = 1 :=
  (mem_orthogonalGroup_iff _ _).mp (mem_specialOrthogonalGroup_iff.mp h).1

theorem distance_transform (p q : Point α) :
    (f.transform p).distance (f.transform q) = p.distance q := by
  rw [Point.distance_eq, Point.distance_eq, vec_transform, vec_transform, add_sub_add_right_eq_sub,
    ← mulVec_sub, dotProduct_mulVec_self (transpose_turn_mul h)]

theorem restore_transform (p : Point α) : f.restore (f.transform p) = p := by
  rw [restore, vec_transform, add_sub_cancel_right, mulVec_mulVec, transpose_turn_mul h, one_mulVec,
    Point.ofVec_vec]

theorem transform_restore (p : Point α) : f.transform (f.restore p) = p := by
  rw [← Point.ofVec_vec (f.transform _), vec_transform, restore, Point.vec_ofVec, mulVec_mulVec,
    turn_mul_transpose h, one_mulVec, sub_add_cancel, Point.ofVec_vec]

end

theorem transform_origin (f : DetectorFrame α) : f.transform ⟨0, 0, 0⟩ = f.offset := by
  have hzero : (⟨0, 0, 0⟩ : Point α).vec = 0 := by
    funext i
    fin_cases i <;> rfl
  rw [← Point.ofVec_vec (f.transform _), vec_transform, hzero, mulVec_zero, zero_add,
    Point.ofVec_vec]

/-- Every frame is rigid, whatever its tilts and its offset are. -/
theorem rigid (h : ∀ angle : α, Elementary.sin angle ^ 2 + Elementary.cos angle ^ 2 = 1)
    (f : DetectorFrame α) : f.Rigid := by
  have hrotations : ∀ axis, f.about axis ∈ specialOrthogonalGroup (Fin 3) α :=
    fun axis => rotation_mem (h _) axis
  have hturn : f.turn ∈ specialOrthogonalGroup (Fin 3) α :=
    mul_mem (mul_mem (hrotations 2) (hrotations 1)) (hrotations 0)
  refine ⟨hrotations, ?_, f.transform_origin, distance_transform hturn, restore_transform hturn,
    transform_restore hturn⟩
  intro p
  rw [vec_transform, turn, mulVec_mulVec, mulVec_mulVec]

end DetectorFrame

section Hits

variable {α : Type} [Exact α]

def distances (ps : List (Point α)) : List (List α) := ps.map fun p => ps.map p.distance

theorem distances_map {move : Point α → Point α}
    (h : ∀ p q, (move p).distance (move q) = p.distance q) (ps : List (Point α)) :
    distances (ps.map move) = distances ps := by
  rw [distances, List.map_map]
  apply List.map_congr_left
  intro p _
  rw [Function.comp_apply, List.map_map]
  apply List.map_congr_left
  intro q _
  exact h p q

structure Carried {β : Type} (point : β → Point α) (rest : β → β) (move : Point α → Point α)
    (before after : List β) : Prop where
  points : after.map point = (before.map point).map move
  rest : after.map rest = before.map rest
  distances : distances (after.map point) = distances (before.map point)

theorem Carried.of_map {β : Type} {point : β → Point α} {rest : β → β} {move : Point α → Point α}
    (place : β → Point α → β) (hpoint : ∀ b p, point (place b p) = p)
    (hrest : ∀ b p, rest (place b p) = rest b)
    (hmove : ∀ p q, (move p).distance (move q) = p.distance q) (bs : List β) :
    Carried point rest move bs (bs.map fun b => place b (move (point b))) := by
  have hpoints : (bs.map fun b => place b (move (point b))).map point =
      (bs.map point).map move := by
    simp only [List.map_map, Function.comp_def, hpoint]
  refine ⟨hpoints, ?_, ?_⟩
  · simp only [List.map_map, Function.comp_def, hrest]
  · rw [hpoints, distances_map hmove]

end Hits

namespace Alignment

variable {α : Type} [ExactElementary α]

/-- Hits go with the frame of their detector and change in nothing but their points. -/
theorem frames_move_rigidly
    (h : ∀ angle : α, Elementary.sin angle ^ 2 + Elementary.cos angle ^ 2 = 1) :
    (∀ f : DetectorFrame α, f.Rigid) ∧
      (∀ (a : Alignment α) (hits : List (CaloHit α)),
        Carried (fun hit => ⟨hit.x, hit.y, hit.z⟩) (fun hit => { hit with x := 0, y := 0, z := 0 })
          (a.frame .hyCal).transform hits (a.alignCalo hits)) ∧
      (∀ (a : Alignment α) (detector : Detector) (hits : List (TrackerHit α)),
        Carried (fun hit => ⟨hit.x, hit.y, hit.z⟩) (fun hit => { hit with x := 0, y := 0, z := 0 })
          (a.frame detector).transform hits (a.alignTracker detector hits)) := by
  refine ⟨DetectorFrame.rigid h, ?_, ?_⟩
  · intro a hits
    exact .of_map CaloHit.at (fun _ _ => rfl) (fun _ _ => rfl)
      (DetectorFrame.rigid h _).distance hits
  · intro a detector hits
    exact .of_map TrackerHit.at (fun _ _ => rfl) (fun _ _ => rfl)
      (DetectorFrame.rigid h _).distance hits

/-- A chamber that is tilted about all axes. -/
theorem tilted_frame_moves_rigidly :
    let f : DetectorFrame ℝ := ⟨0, .gem1, ⟨1, 2, 5407⟩, ⟨0.01, -0.02, 1.5⟩⟩
    (∀ angle : ℝ, Elementary.sin angle ^ 2 + Elementary.cos angle ^ 2 = 1) ∧
      f.transform ⟨0, 0, 0⟩ = ⟨1, 2, 5407⟩ ∧
      (f.transform ⟨7, -1, 0⟩).distance (f.transform ⟨4, 3, 0⟩) = 5 := by
  intro f
  have hunit : ∀ angle : ℝ, Elementary.sin angle ^ 2 + Elementary.cos angle ^ 2 = 1 :=
    Real.sin_sq_add_cos_sq
  obtain ⟨hrigid, -, -⟩ := frames_move_rigidly hunit
  refine ⟨hunit, (hrigid f).origin, ?_⟩
  rw [(hrigid f).distance, Point.distance]
  change Real.sqrt _ = 5
  rw [show (7 - 4 : ℝ) ^ 2 + (-1 - 3) ^ 2 + (0 - 0) ^ 2 = 5 ^ 2 by norm_num]
  exact Real.sqrt_sq (by norm_num)

end Alignment

end ShowerTrack
