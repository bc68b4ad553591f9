import ShowerTrack.Proofs.Checked.Reading
import ShowerTrack.Proofs.Interpolation
import ShowerTrack.Proofs.Leakage
import ShowerTrack.Proofs.Positions

/-!
# Guarded divisions

Leakage recovery and the making of a hit again, every definition with the name of the one that runs
and with every quotient taken under a check that its divisor is not zero. In exact arithmetic all
divisors but one stand behind tests that keep them from being zero. The one left is that of the
nonlinearity correction: it is zero where a limit above 1 lets a nonlinearity of -1 pass.
-/

set_option autoImplicit false

namespace ShowerTrack

variable {α : Type}

namespace Guarded

section Arithmetic

variable [Scalar α]

def divide (a b : α) : Option α := if Scalar.same b 0 then none else some (a / b)

def spacing (a b : Placement α) : Option (α × α) := do
  let dx ← divide (2 * (b.x - a.x)) (a.sizeX + b.sizeX)
  let dy ← divide (2 * (b.y - a.y)) (a.sizeY + b.sizeY)
  some (dx, dy)

def distance (a b : Placement α) : Option α := do
  let (dx, dy) ← spacing a b
  some (Scalar.sqrt (dx * dx + dy * dy))

def fraction (p : Profile α) (kind : BlockKind) (dx dy : α) : Option α :=
  let dx := Scalar.abs dx
  let dy := Scalar.abs dy
  if Profile.range ≤ dx ∨ Profile.range ≤ dy then some 0
  else do
    let fx ← divide dx Profile.step
    let fy ← divide dy Profile.step
    let ix := Profile.cellIndex fx
    let iy := Profile.cellIndex fy
    some (Profile.interpolate (fx - Scalar.ofNat ix) (fy - Scalar.ofNat iy)
      (p.node kind ix iy) (p.node kind (ix + 1) iy)
      (p.node kind ix (iy + 1)) (p.node kind (ix + 1) (iy + 1)))

def fractionAt (p : Profile α) (b : Placement α) (x y : α) : Option α := do
  let dx ← divide (x - b.x) b.sizeX
  let dy ← divide (y - b.y) b.sizeY
  fraction p b.kind dx dy

def estimates (p : Profile α) (dead : List (BlockHit α)) (x y energy : α) :
    Option (List (BlockHit α)) :=
  dead.mapM fun b => do
    let f ← fractionAt p b.place x y
    some { b with energy := f * energy }

def alpha (c : Calibration α) (energy : α) : Option α :=
  divide (c.nonLinear * (energy - c.baseEnergy)) 1000

def leakagePart (c : BlockCluster α) : Option α :=
  if 0 < c.energy then divide c.leakage c.energy else some 0

end Arithmetic

section Elementary

variable [Elementary α] (s : CaloSettings α)

def logWeight (energy total : α) : Option α :=
  if energy ≤ 0 ∨ total ≤ 0 then some 0
  else do
    let part ← divide energy total
    some (Scalar.max (s.logWeightThreshold + Elementary.ln part) 0)

def showerDepth (kind : BlockKind) (energy : α) : Option α :=
  if !s.depthCorrection ∨ energy ≤ 0 then some 0
  else do
    let ratio ← divide energy (CaloSettings.criticalEnergy kind)
    some (CaloSettings.radiationLength kind * Elementary.log2 ratio)

def weigh (total : α) (m : CaloSettings.Weighted α) (h : BlockHit α) :
    Option (CaloSettings.Weighted α) := do
  let w ← logWeight s h.energy total
  some ⟨m.x + w * h.place.x, m.y + w * h.place.y, m.weight + w⟩

def core (center : BlockHit α) (hits : List (BlockHit α)) : Option (List (BlockHit α)) :=
  Checked.keep (fun h => (distance center.place h.place).map fun d => decide (d < cornerAdjacent))
    hits

def position (center : BlockHit α) (hits : List (BlockHit α)) : Option ((α × α) × Nat) := do
  let near ← core center hits
  let total := Scalar.sum (near.map (·.energy))
  let m ← near.foldlM (weigh s total) ⟨0, 0, 0⟩
  if 0 < m.weight then
    let x ← divide m.x m.weight
    let y ← divide m.y m.weight
    some ((x, y), near.length)
  else some ((center.place.x, center.place.y), near.length)

def leakEstimates (p : Profile α) (c : BlockCluster α) (dead : List (BlockHit α)) :
    Nat → Option (List (BlockHit α))
  | 0 => estimates p dead c.center.place.x c.center.place.y c.energy
  | n + 1 => do
    let leaks ← leakEstimates p c dead n
    let ((x, y), _) ← position s c.center (c.hits ++ leaks)
    estimates p dead x y c.energy

def recoverLeakage (p : Profile α) (dead : List (BlockHit α)) (c : BlockCluster α) :
    Option (BlockCluster α) :=
  if dead.isEmpty || c.isEmpty then some c
  else do
    let leaks ← leakEstimates s p c dead s.leakIterations
    some (leaks.foldl (CaloSettings.recover (s.leastLeak * c.energy)) (c.setFlag .deadNeighbor))

def linearized (calibration : Calibration α) (energy : α) : Option (α × α) := do
  let alpha ← alpha calibration energy
  if Scalar.abs alpha < s.nonLinearLimit then
    let factor ← divide 1 (1 + alpha)
    some (energy * factor, factor)
  else some (energy, 1)

def reconstruct (calibration : Calibration α) (c : BlockCluster α) : Option (CaloHit α) := do
  let ((x, y), located) ← position s c.center c.hits
  let (energy, linearity) ← linearized s calibration c.energy
  let depth ← showerDepth s c.center.place.kind energy
  let leakage ← leakagePart c
  some
    { block := c.center.id
      flags := c.flags.union c.center.site.flags
      x, y
      z := c.center.place.z + depth
      energy, linearity, leakage
      blocks := c.hits.length
      located }

end Elementary

structure Extended [Exact α] (b : Placement α) : Prop where
  sizeX : 0 < b.sizeX
  sizeY : 0 < b.sizeY

section Exact

variable [Exact α]

theorem divide_eq {a b : α} (h : b ≠ 0) : divide a b = some (a / b) := by
  rw [divide, Exact.zero_eq]
  apply if_neg
  intro hsame
  rw [Scalar.same, Bool.and_eq_true, decide_eq_true_eq, decide_eq_true_eq] at hsame
  exact h (le_antisymm hsame.1 hsame.2)

theorem divide_zero (a : α) : divide a 0 = none := by
  rw [divide, Exact.zero_eq]
  apply if_pos
  rw [Scalar.same, decide_eq_true le_rfl]
  rfl

theorem distance_eq {a b : Placement α} (ha : Extended a) (hb : Extended b) :
    distance a b = some (a.distance b) := by
  have hx : a.sizeX + b.sizeX ≠ 0 := (add_pos ha.sizeX hb.sizeX).ne'
  have hy : a.sizeY + b.sizeY ≠ 0 := (add_pos ha.sizeY hb.sizeY).ne'
  rw [distance, spacing, divide_eq hx, divide_eq hy]
  rfl

theorem fraction_eq (p : Profile α) (kind : BlockKind) (dx dy : α) :
    fraction p kind dx dy = some (p.fraction kind dx dy) := by
  have hstep : (Profile.step : α) ≠ 0 := by
    rw [Profile.step_eq]
    norm_num
  rw [fraction, Profile.fraction, divide_eq hstep, divide_eq hstep]
  simp only
  split
  · rfl
  · rfl

theorem fractionAt_eq (p : Profile α) {b : Placement α} (hb : Extended b) (x y : α) :
    fractionAt p b x y = some (p.fractionAt b x y) := by
  rw [fractionAt, divide_eq hb.sizeX.ne', divide_eq hb.sizeY.ne']
  exact fraction_eq p b.kind _ _

theorem estimates_eq (p : Profile α) {dead : List (BlockHit α)}
    (hdead : ∀ b ∈ dead, Extended b.place) (x y energy : α) :
    estimates p dead x y energy = some (CaloSettings.estimates p dead x y energy) := by
  apply Checked.mapM_eq
  intro b hb
  rw [fractionAt_eq p (hdead b hb)]
  rfl

theorem alpha_eq (c : Calibration α) (energy : α) : alpha c energy = some (c.alpha energy) := by
  apply divide_eq
  norm_num

theorem leakagePart_eq (c : BlockCluster α) :
    leakagePart c = some (if 0 < c.energy then c.leakage / c.energy else 0) := by
  rw [leakagePart, Exact.zero_eq]
  split
  · rename_i hpos
    exact divide_eq hpos.ne'
  · rfl

end Exact

section ExactElementary

variable [ExactElementary α] (s : CaloSettings α)

theorem logWeight_eq (energy total : α) :
    logWeight s energy total = some (s.logWeight energy total) := by
  rw [logWeight, CaloSettings.logWeight]
  split
  · rfl
  · rename_i hsome
    rw [not_or, not_le, not_le] at hsome
    have htotal : total ≠ 0 := (Exact.zero_eq.symm.trans_lt hsome.2).ne'
    rw [divide_eq htotal]
    rfl

theorem showerDepth_eq (kind : BlockKind) (energy : α) :
    showerDepth s kind energy = some (s.showerDepth kind energy) := by
  have hcritical : (CaloSettings.criticalEnergy kind : α) ≠ 0 := by
    cases kind with
    | crystal => rw [CaloSettings.criticalEnergy]; norm_num
    | glass => rw [CaloSettings.criticalEnergy]; norm_num
  rw [showerDepth, CaloSettings.showerDepth, divide_eq hcritical]
  split
  · rfl
  · rfl

theorem core_eq {center : BlockHit α} {hits : List (BlockHit α)} (hcenter : Extended center.place)
    (hhits : ∀ h ∈ hits, Extended h.place) :
    core center hits = some (CaloSettings.core center hits) := by
  apply Checked.keep_eq
  intro h hh
  rw [distance_eq hcenter (hhits h hh)]
  rfl

theorem position_eq {center : BlockHit α} {hits : List (BlockHit α)}
    (hcenter : Extended center.place) (hhits : ∀ h ∈ hits, Extended h.place) :
    position s center hits =
      some (s.position center hits, (CaloSettings.core center hits).length) := by
  have hweigh : ∀ (total : α) (near : List (BlockHit α)) (m : CaloSettings.Weighted α),
      near.foldlM (weigh s total) m =
        some (near.foldl (CaloSettings.Weighted.add s total) m) := by
    intro total near m
    refine (Checked.foldlM_eq (P := fun _ => True) (fun m _ h _ => ⟨?_, trivial⟩) trivial).1
    rw [weigh, logWeight_eq]
    rfl
  rw [position, core_eq hcenter hhits]
  simp only [Option.bind_eq_bind, Option.bind_some, hweigh, CaloSettings.position]
  split
  · rename_i hpos
    have hweight := (Exact.zero_eq.symm.trans_lt hpos).ne'
    rw [divide_eq hweight, divide_eq hweight]
    rfl
  · rfl

/-- An estimate is of a dead block, and a part of the energy of the cluster. -/
theorem of_mem_leakEstimates {p : Profile α} {c : BlockCluster α} {dead : List (BlockHit α)}
    {n : Nat} {leak : BlockHit α} (h : leak ∈ s.leakEstimates p c dead n) :
    ∃ b ∈ dead, ∃ x y, leak = { b with energy := p.fractionAt b.place x y * c.energy } := by
  have hestimated : ∃ x y, leak ∈ CaloSettings.estimates p dead x y c.energy := by
    cases n with
    | zero => exact ⟨_, _, h⟩
    | succ n => exact ⟨_, _, h⟩
  obtain ⟨x, y, hleak⟩ := hestimated
  obtain ⟨b, hb, rfl⟩ := List.mem_map.mp hleak
  exact ⟨b, hb, x, y, rfl⟩

structure Regular (c : BlockCluster α) : Prop where
  center : Extended c.center.place
  hits : ∀ h ∈ c.hits, Extended h.place
  energy : 0 ≤ c.energy

theorem Regular.of_sound {c : BlockCluster α} (hsound : c.Sound) (hne : c.hits ≠ [])
    (hnonneg : ∀ h ∈ c.hits, 0 ≤ h.energy) (hsize : ∀ h ∈ c.hits, Extended h.place) :
    Regular c where
  center := hsize _ (hsound.center_mem hne)
  hits := hsize
  energy := by
    rw [hsound.energy]
    apply List.sum_nonneg
    intro e he
    obtain ⟨h, hh, rfl⟩ := List.mem_map.mp he
    exact hnonneg h hh

theorem Regular.takeIn {c : BlockCluster α} (h : Regular c) {leak : BlockHit α}
    (hsize : Extended leak.place) (hnonneg : 0 ≤ leak.energy) :
    Regular (CaloSettings.takeIn c leak) where
  center := by
    rw [CaloSettings.takeIn, BlockCluster.setFlag, BlockCluster.add, BlockCluster.newCenter]
    split
    · exact hsize
    · exact h.center
  hits := by
    intro k hk
    rcases List.mem_append.mp hk with hold | hnew
    · exact h.hits k hold
    · rw [List.mem_singleton.mp hnew]
      exact hsize
  energy := add_nonneg h.energy hnonneg

theorem Regular.foldl_takeIn {c : BlockCluster α} (h : Regular c) {leaks : List (BlockHit α)}
    (hleaks : ∀ leak ∈ leaks, Extended leak.place ∧ 0 ≤ leak.energy) :
    Regular (leaks.foldl CaloSettings.takeIn c) :=
  List.foldlRecOn leaks CaloSettings.takeIn h fun _ hbefore leak hleak =>
    hbefore.takeIn (hleaks leak hleak).1 (hleaks leak hleak).2

section Recovery

variable {p : Profile α} {c : BlockCluster α} {dead : List (BlockHit α)} (hc : Regular c)
  (hdead : ∀ b ∈ dead, Extended b.place)

include hc hdead

theorem leakEstimates_eq (n : Nat) :
    leakEstimates s p c dead n = some (s.leakEstimates p c dead n) := by
  induction n with
  | zero => exact estimates_eq p hdead _ _ _
  | succ n ih =>
    have hall : ∀ h ∈ c.hits ++ s.leakEstimates p c dead n, Extended h.place := by
      intro h hh
      rcases List.mem_append.mp hh with hhit | hleak
      · exact hc.hits h hhit
      · obtain ⟨b, hb, x, y, rfl⟩ := of_mem_leakEstimates s hleak
        exact hdead b hb
    rw [leakEstimates, ih, Option.bind_eq_bind, Option.bind_some, position_eq s hc.center hall]
    exact estimates_eq p hdead _ _ _

theorem recoverLeakage_eq : recoverLeakage s p dead c = some (s.recoverLeakage p dead c) := by
  rw [recoverLeakage, CaloSettings.recoverLeakage, leakEstimates_eq s hc hdead]
  split
  · rfl
  · rfl

/-- What is taken in is not negative, so that recovery leaves no less energy than there was. -/
theorem Regular.recoverLeakage (hp : p.Nonneg) : Regular (s.recoverLeakage p dead c) := by
  rw [CaloSettings.recoverLeakage]
  split
  · exact hc
  · rw [CaloSettings.foldl_recover]
    have hmarked : Regular (c.setFlag .deadNeighbor) := ⟨hc.center, hc.hits, hc.energy⟩
    apply hmarked.foldl_takeIn
    intro leak hleak
    obtain ⟨b, hb, x, y, rfl⟩ := of_mem_leakEstimates s (List.mem_filter.mp hleak).1
    exact ⟨hdead b hb, mul_nonneg (Profile.fraction_nonneg hp _ _ _) hc.energy⟩

end Recovery

/-- The correction divides by zero where a nonlinearity of -1 is below the limit, and else not. -/
theorem linearized_eq (calibration : Calibration α) (energy : α) :
    linearized s calibration energy =
      if 1 < s.nonLinearLimit ∧ calibration.alpha energy = -1 then none
      else some (s.linearized calibration energy) := by
  rw [linearized, alpha_eq, Option.bind_eq_bind, Option.bind_some, CaloSettings.linearized]
  simp only [Exact.abs_eq, Exact.one_eq]
  by_cases hsmall : |calibration.alpha energy| < s.nonLinearLimit
  · rw [if_pos hsmall, if_pos hsmall]
    by_cases hminus : calibration.alpha energy = -1
    · have hlimit : 1 < s.nonLinearLimit := by
        rwa [hminus, abs_neg, abs_one] at hsmall
      rw [if_pos ⟨hlimit, hminus⟩, hminus, add_neg_cancel, divide_zero]
      rfl
    · have hdivisor : 1 + calibration.alpha energy ≠ 0 := fun hzero =>
        hminus (eq_neg_of_add_eq_zero_right hzero)
      rw [if_neg fun h => hminus h.2, divide_eq hdivisor]
      rfl
  · have hsound : ¬ (1 < s.nonLinearLimit ∧ calibration.alpha energy = -1) := by
      rintro ⟨hlimit, hminus⟩
      rw [hminus, abs_neg, abs_one] at hsmall
      exact hsmall hlimit
    rw [if_neg hsmall, if_neg hsmall, if_neg hsound]

/-- The correction turns the sign of an energy where a nonlinearity below -1 is within the limit. -/
theorem linearized_neg_iff (calibration : Calibration α) {energy : α} (henergy : 0 ≤ energy) :
    (s.linearized calibration energy).1 < 0 ↔
      0 < energy ∧ calibration.alpha energy < -1 ∧
        -calibration.alpha energy < s.nonLinearLimit := by
  rw [CaloSettings.linearized]
  simp only [Exact.abs_eq, Exact.one_eq]
  split
  · rename_i hsmall
    rw [mul_one_div, div_neg_iff]
    constructor
    · rintro (⟨hpos, hneg⟩ | ⟨hneg, -⟩)
      · exact ⟨hpos, by linarith, (neg_le_abs _).trans_lt hsmall⟩
      · exact absurd henergy hneg.not_ge
    · rintro ⟨hpos, halpha, -⟩
      exact .inl ⟨hpos, by linarith⟩
  · rename_i hlarge
    constructor
    · exact fun hneg => absurd henergy hneg.not_ge
    · rintro ⟨-, halpha, hlimit⟩
      have hneg : calibration.alpha energy < 0 := by linarith
      rw [abs_of_neg hneg] at hlarge
      exact absurd hlimit hlarge

theorem reconstruct_eq (calibration : Calibration α) {c : BlockCluster α} (hc : Regular c) :
    reconstruct s calibration c =
      if 1 < s.nonLinearLimit ∧ calibration.alpha c.energy = -1 then none
      else some (s.reconstruct calibration c) := by
  rw [reconstruct, position_eq s hc.center hc.hits, linearized_eq]
  split
  · rfl
  · simp only [Option.bind_eq_bind, Option.bind_some, showerDepth_eq, leakagePart_eq,
      CaloSettings.reconstruct, Exact.zero_eq]

/-- Whatever the settings are, leakage recovery divides by nothing that is zero. The making of a hit
does so in the correction alone, where the limit is above 1 and the nonlinearity is -1, and makes
energies negative where the nonlinearity is below -1 and within the limit. -/
theorem only_linearity_divides_by_zero (calibration : Calibration α)
    (fraction : BlockKind → α → α → α) (c : BlockCluster α) (dead : List (BlockHit α))
    (hsound : c.Sound) (hne : c.hits ≠ [])
    (hnonneg : ∀ h ∈ c.hits, 0 ≤ h.energy) (hsize : ∀ h ∈ c.hits, Extended h.place)
    (hdead : ∀ b ∈ dead, Extended b.place) :
    let p := Profile.ofFractions fraction
    let c' := s.recoverLeakage p dead c
    let alpha := calibration.alpha c'.energy
    let hit := s.reconstruct calibration c'
    recoverLeakage s p dead c = some c' ∧
      (reconstruct s calibration c' =
        if 1 < s.nonLinearLimit ∧ alpha = -1 then none else some hit) ∧
      (hit.energy < 0 ↔ 0 < c'.energy ∧ alpha < -1 ∧ -alpha < s.nonLinearLimit) := by
  intro p c' alpha hit
  have hregular : Regular c := .of_sound hsound hne hnonneg hsize
  have hrecovered : Regular c' :=
    hregular.recoverLeakage s hdead (Profile.nonneg_ofFractions fraction)
  exact ⟨recoverLeakage_eq s hregular hdead, reconstruct_eq s calibration hrecovered,
    linearized_neg_iff s calibration hrecovered.energy⟩

theorem extended_crystal (row column : Nat) :
    Extended (Sectors.crystal row column : Block α).place := by
  have hsize : (0 : α) < Sectors.crystalSize := by
    unfold Sectors.crystalSize
    norm_num
  exact ⟨hsize, hsize⟩

theorem extended_nested : ∀ h ∈ (Assembly.nested : Assembly α).hits, Extended h.place := by
  intro h hh
  obtain rfl | rfl | rfl := Assembly.mem_hits_nested hh
  · exact extended_crystal 0 0
  · exact extended_crystal 0 1
  · exact extended_crystal 0 2

end ExactElementary

/-- A dead block below the first of three crystals. -/
theorem nested_recovered :
    let s : CaloSettings ℝ := .standard
    let p := Profile.ofFractions fun _ _ _ => 0.5
    let c : BlockCluster ℝ := Assembly.nested.build
    let dead : List (BlockHit ℝ) := [(Sectors.crystal 1 0).hit 0]
    c.Sound ∧ c.hits ≠ [] ∧ (∀ h ∈ c.hits, 0 ≤ h.energy) ∧ (∀ h ∈ c.hits, Extended h.place) ∧
      (∀ b ∈ dead, Extended b.place) ∧
      (recoverLeakage s p dead c).bind (reconstruct s .none) =
        some (s.reconstruct .none (s.recoverLeakage p dead c)) := by
  intro s p c dead
  have hhits : c.hits = (Assembly.nested : Assembly ℝ).hits := Assembly.hits_build _
  have hsound : c.Sound := Assembly.sound_build Assembly.nested_nonneg
  have hne : c.hits ≠ [] := hhits.trans_ne (List.cons_ne_nil _ _)
  have hnonneg : ∀ h ∈ c.hits, 0 ≤ h.energy := hhits ▸ Assembly.nested_nonneg
  have hsize : ∀ h ∈ c.hits, Extended h.place := hhits ▸ extended_nested
  have hdead : ∀ b ∈ dead, Extended b.place := by
    intro b hb
    rw [List.mem_singleton.mp hb]
    exact extended_crystal 1 0
  have hlinear : ∀ e, (Calibration.none : Calibration ℝ).alpha e ≠ -1 := by
    simp [Calibration.alpha, Calibration.none]
  obtain ⟨hrecovered, hhit, -⟩ :=
    only_linearity_divides_by_zero s .none (fun _ _ _ => 0.5) c dead hsound hne hnonneg hsize hdead
  refine ⟨hsound, hne, hnonneg, hsize, hdead, ?_⟩
  rw [hrecovered, Option.bind_some, hhit, if_neg fun h => hlinear _ h.2]

/-- A crystal that measures 1000 MeV. Under a limit of 2 a slope of -1 makes the divisor of the
correction zero, and under a limit of 3 a slope of -2 makes the energy negative. -/
theorem lone_crystal_divides_by_zero :
    let c : BlockCluster ℝ := .single ((Sectors.crystal 10 10).hit 1000)
    let wide : CaloSettings ℝ := { CaloSettings.standard with nonLinearLimit := 2 }
    let wider : CaloSettings ℝ := { CaloSettings.standard with nonLinearLimit := 3 }
    c.hits ≠ [] ∧ (∀ h ∈ c.hits, 0 ≤ h.energy ∧ Extended h.place) ∧
      reconstruct wide ⟨0, -1⟩ c = none ∧ (wider.reconstruct ⟨0, -2⟩ c).energy < 0 := by
  intro c wide wider
  have henergy : c.energy = 1000 := by
    have hsum : c.energy = Nat.cast 0 + Nat.cast 1000 := rfl
    rw [hsum]
    norm_num
  have hpos : 0 < c.energy := by
    rw [henergy]
    norm_num
  have hhit : ∀ h ∈ c.hits, 0 ≤ h.energy ∧ Extended h.place := by
    intro h hh
    rw [List.mem_singleton.mp hh]
    exact ⟨Nat.cast_nonneg 1000, extended_crystal 10 10⟩
  have hregular : Regular c :=
    ⟨extended_crystal 10 10, fun h hh => (hhit h hh).2, hpos.le⟩
  have halpha : ∀ slope : ℝ, (⟨0, slope⟩ : Calibration ℝ).alpha c.energy = slope := by
    intro slope
    rw [henergy, Calibration.alpha]
    norm_num
  have hwide : 1 < wide.nonLinearLimit := one_lt_two
  have hwider : -(-2) < wider.nonLinearLimit := (neg_neg 2).trans_lt (by norm_num [wider])
  refine ⟨List.cons_ne_nil _ _, hhit, ?_, ?_⟩
  · rw [reconstruct_eq wide _ hregular, halpha, if_pos ⟨hwide, rfl⟩]
  · apply (linearized_neg_iff wider _ hregular.energy).mpr
    rw [halpha]
    exact ⟨hpos, by norm_num, hwider⟩

end Guarded

end ShowerTrack
