import ShowerTrack.Calorimeter.State
import ShowerTrack.Proofs.Checked.Grid
import ShowerTrack.Proofs.Checked.Primex
import ShowerTrack.Proofs.Checked.Square
import ShowerTrack.Proofs.Filling

/-!
# Checked calorimeter

The calorimeter keeps its blocks, their energies, the marks of the dead blocks and the dead blocks
around each block in tables of one length. A map gives the position of a block, and a block refers
to the blocks around it by their positions.
-/

set_option autoImplicit false

namespace ShowerTrack.Checked

variable {α : Type}

section Layout

variable [Scalar α]

def isBeamHole (row column : Nat) : Option Bool := do
  let low ← sub (Sectors.crystalGrid / 2) 1
  some ([row, column].all fun i => low ≤ i && i ≤ Sectors.crystalGrid / 2)

def crystalFlags (row column : Nat) : Option Flags := do
  let edge ← sub Sectors.crystalGrid 1
  let low ← sub (Sectors.crystalGrid / 2) 2
  some (.ofList ([.crystal] ++
    (if row = 0 ∨ column = 0 ∨ row = edge ∨ column = edge then [.transition] else []) ++
    (if [row, column].all fun i => low ≤ i && i ≤ Sectors.crystalGrid / 2 + 1 then [.innerBound]
      else [])))

def crystal (row column : Nat) : Option (Block α) := do
  let flags ← crystalFlags row column
  some { Sectors.crystal row column with site := ⟨flags, 0, row, column⟩ }

def glassFlags (row column : Nat) : Option Flags := do
  let last ← sub Sectors.glassRows 1
  some (.ofList ([.glass] ++
    (if row = 0 ∨ column = 0 then [.outerBound] else []) ++
    (if row = last ∧ Sectors.glassRows ≤ column then [.transition] else [])))

def glassBlock (sector row column : Nat) : Option (Block α) := do
  let flags ← glassFlags row column
  some { Sectors.glassBlock sector row column with site := ⟨flags, sector, row, column⟩ }

def layout : Option (List (Block α)) := do
  let sectors ← sub Sectors.count 1
  let glass ← (List.range sectors).mapM fun s =>
    (Sectors.cells Sectors.glassRows Sectors.glassColumns).mapM fun cell =>
      glassBlock (s + 1) cell.1 cell.2
  let solid ← keep (fun cell => (isBeamHole cell.1 cell.2).map (!·))
    (Sectors.cells Sectors.crystalGrid Sectors.crystalGrid)
  let crystals ← solid.mapM fun cell => crystal cell.1 cell.2
  some (glass.flatten ++ crystals)

theorem nearMiddle_eq {margin : Nat} (low high : Nat)
    (hlow : Sectors.crystalGrid / 2 = low + margin)
    (hhigh : Sectors.crystalGrid / 2 + margin = high + 1) (row column : Nat) :
    ([row, column].all fun i => low ≤ i && i ≤ high) = Sectors.nearMiddle margin row column := by
  rw [Sectors.nearMiddle, hhigh, hlow, Bool.eq_iff_iff]
  simp only [List.all_eq_true, Bool.and_eq_true, decide_eq_true_eq, Nat.add_le_add_iff_right,
    Nat.lt_succ_iff]

theorem isBeamHole_eq (row column : Nat) :
    isBeamHole row column = some (Sectors.isBeamHole row column) := by
  rw [Sectors.isBeamHole, ← nearMiddle_eq 16 17 rfl rfl]
  rfl

theorem crystalFlags_eq (row column : Nat) :
    crystalFlags row column = some (Sectors.crystalFlags row column) := by
  rw [Sectors.crystalFlags, ← nearMiddle_eq 15 18 rfl rfl]
  rfl

theorem crystal_eq (row column : Nat) :
    crystal row column = some (Sectors.crystal row column : Block α) := by
  rw [crystal, crystalFlags_eq]
  rfl

theorem glassBlock_eq (sector row column : Nat) :
    glassBlock sector row column = some (Sectors.glassBlock sector row column : Block α) := by
  rw [glassBlock]
  rfl

theorem layout_eq : layout = some (Sectors.blocks : List (Block α)) := by
  have hglass : ∀ s, (Sectors.cells Sectors.glassRows Sectors.glassColumns).mapM
      (fun cell => glassBlock (s + 1) cell.1 cell.2) =
        some (Sectors.glassSector (s + 1) : List (Block α)) := fun s =>
    mapM_eq fun cell _ => glassBlock_eq (s + 1) cell.1 cell.2
  have hsolid : keep (fun cell => (isBeamHole cell.1 cell.2).map (!·))
      (Sectors.cells Sectors.crystalGrid Sectors.crystalGrid) =
        some ((Sectors.cells Sectors.crystalGrid Sectors.crystalGrid).filter
          fun cell => !Sectors.isBeamHole cell.1 cell.2) := by
    apply keep_eq
    intro cell _
    rw [isBeamHole_eq]
    rfl
  have hcrystals : ∀ cells : List (Nat × Nat), cells.mapM (fun cell => crystal cell.1 cell.2) =
      some (cells.map fun cell => (Sectors.crystal cell.1 cell.2 : Block α)) := fun cells =>
    mapM_eq fun cell _ => crystal_eq cell.1 cell.2
  rw [layout, sub_eq (show 1 ≤ Sectors.count by decide)]
  simp only [Option.bind_eq_bind, Option.bind_some, mapM_eq fun s _ => hglass s, hsolid, hcrystals]
  rw [Sectors.blocks, List.flatMap_def]
  rfl

end Layout

/-- The positions of a list of numbers, the last one for a number that stands there twice. -/
def positions (ids : List Int) : Std.HashMap Int Nat :=
  ids.zipIdx.foldl (fun m x => m.insert x.1 x.2) ∅

theorem getElem?_foldl_insert (cs : List (Channel α)) (id : Int) (m : Std.HashMap Int Nat)
    (n : Nat) : (((cs.map (·.block.id)).zipIdx n).foldl (fun m x => m.insert x.1 x.2) m)[id]? =
      ((Calorimeter.indexIn id cs).map (· + n)).or m[id]? := by
  induction cs generalizing m n with
  | nil => rfl
  | cons c cs ih =>
    rw [List.map_cons, List.zipIdx_cons, List.foldl_cons, ih, Calorimeter.indexIn,
      Std.HashMap.getElem?_insert]
    cases Calorimeter.indexIn id cs with
    | some i =>
      simp only [Option.map_some, Option.some_or]
      congr 1
      omega
    | none => by_cases hid : c.block.id = id <;> simp [hid]

theorem getElem?_positions (d : Calorimeter α) (id : Int) :
    (positions (d.channels.map (·.block.id)))[id]? = d.index? id := by
  rw [positions, getElem?_foldl_insert]
  simp [Calorimeter.index?]

structure Arena (α : Type) where
  blocks : Array (Block α)
  indices : Std.HashMap Int Nat
  dead : Array Bool
  neighbors : Array (List Nat)
  energies : Array α
  blockHits : List (BlockHit α)
  clusters : List (BlockCluster α)
  hits : List (CaloHit α)
  overflow : Nat

namespace Arena

section Arithmetic

variable [Scalar α]

def deadAround (places : List (Placement α × Bool)) (x : (Placement α × Bool) × Nat) : List Nat :=
  (places.zipIdx.filter fun y =>
    y.2 != x.2 && y.1.2 && x.1.1.distance y.1.1 < cornerAdjacent).map (·.2)

def ofCalorimeter (d : Calorimeter α) : Arena α :=
  let places := d.channels.map fun c => (c.block.place, c.dead)
  { blocks := (d.channels.map (·.block)).toArray
    indices := positions (d.channels.map (·.block.id))
    dead := (d.channels.map (·.dead)).toArray
    neighbors := (places.zipIdx.map (deadAround places)).toArray
    energies := (d.channels.map (·.energy)).toArray
    blockHits := d.blockHits
    clusters := d.clusters
    hits := d.hits
    overflow := d.overflow }

def build (blocks : List (Block α)) : Arena α :=
  { blocks := blocks.toArray
    indices := positions (blocks.map (·.id))
    dead := .replicate blocks.length false
    neighbors := .replicate blocks.length []
    energies := .replicate blocks.length 0
    blockHits := []
    clusters := []
    hits := []
    overflow := 0 }

def standard : Option (Arena α) := layout.map build

def clear (a : Arena α) : Arena α :=
  { a with
    energies := a.energies.map fun _ => 0
    blockHits := []
    clusters := []
    hits := []
    overflow := 0 }

def setCalibration (a : Arena α) (id : Int) (calibration : Calibration α) :
    Option (Arena α × Bool) :=
  match a.indices[id]? with
  | none => some (a, false)
  | some i => do
    let blocks ← edit a.blocks i fun b => some { b with calibration }
    some ({ a with blocks }, true)

def applyCalibrations (a : Arena α) : List (BlockCalibration α) → Option (Arena α × Nat)
  | [] => some (a, 0)
  | c :: cs => do
    let (a, found) ← a.setCalibration c.id ⟨c.baseEnergy, c.nonLinear⟩
    let (a, n) ← applyCalibrations a cs
    some (a, if found then n + 1 else n)

def mark (a : Arena α) (dead : Array Bool) (id : Int) : Option (Array Bool) :=
  match a.indices[id]? with
  | none => some dead
  | some i => put dead i true

def hang (a : Arena α) (b : Block α) (i : Nat) (neighbors : Array (List Nat)) (j : Nat) :
    Option (Array (List Nat)) :=
  if j = i then some neighbors
  else do
    let other ← a.blocks[j]?
    if (b.hit 0).distance (other.hit 0) < cornerAdjacent then
      edit neighbors i fun js => some (js ++ [j])
    else some neighbors

def setDead (a : Arena α) (ids : List Int) : Option (Arena α) := do
  let dead ← ids.foldlM a.mark (a.dead.map fun _ => false)
  let deadAt := (dead.toList.zipIdx.filter (·.1)).map (·.2)
  let neighbors ← a.blocks.toList.zipIdx.foldlM
    (fun neighbors x => deadAt.foldlM (a.hang x.1 x.2) neighbors) (a.neighbors.map fun _ => [])
  some { a with dead, neighbors }

def deadNeighbors (a : Arena α) (id : Int) : Option (List (BlockHit α)) :=
  match a.indices[id]? with
  | none => some []
  | some i => do
    let neighbors ← a.neighbors[i]?
    neighbors.mapM fun j => (a.blocks[j]?).map (·.hit 0)

def addEnergy (a : Arena α) (id : Int) (energy : α) : Option (Arena α × Reception) :=
  match a.indices[id]? with
  | none => some (a, .unknown)
  | some i => do
    let dead ← a.dead[i]?
    if dead then some (a, .dead)
    else if 0 < energy then
      let energies ← edit a.energies i fun e => some (e + energy)
      some ({ a with energies }, .taken)
    else some (a, .taken)

def measured (a : Arena α) : Option (List (BlockHit α)) := do
  let read ← a.blocks.toList.zipIdx.mapM fun x => (a.energies[x.2]?).map fun e => (x.1, e)
  some ((read.filter fun x => 0 < x.2).map fun x => x.1.hit x.2)

def calibration (a : Arena α) (id : Int) : Option (Calibration α) :=
  match a.indices[id]? with
  | none => some .none
  | some i => (a.blocks[i]?).map (·.calibration)

theorem indices_ofCalorimeter (d : Calorimeter α) (id : Int) :
    (ofCalorimeter d).indices[id]? = d.index? id := getElem?_positions d id

theorem build_eq (blocks : List (Block α)) :
    build blocks = ofCalorimeter (.ofBlocks blocks) := by
  have hneighbors : ∀ places : List (Placement α × Bool), (∀ x ∈ places, x.2 = false) →
      places.zipIdx.map (deadAround places) = .replicate places.length [] := by
    intro places hlive
    rw [List.eq_replicate_iff]
    refine ⟨by simp, fun js hjs => ?_⟩
    obtain ⟨x, _, rfl⟩ := List.mem_map.mp hjs
    have hnone : ∀ y ∈ places.zipIdx, y.1.2 = false := fun y hy =>
      hlive y.1 (List.fst_mem_of_mem_zipIdx hy)
    rw [deadAround, List.filter_eq_nil_iff.mpr fun y hy => by simp [hnone y hy], List.map_nil]
  have hempty := hneighbors (blocks.map fun b => (b.place, false)) (by simp)
  rw [List.length_map] at hempty
  simp [build, ofCalorimeter, Calorimeter.ofBlocks, Function.comp_def, hempty]

theorem standard_eq : standard = some (ofCalorimeter (.standard : Calorimeter α)) := by
  rw [standard, layout_eq, Option.map_some, build_eq]
  rfl

theorem clear_ofCalorimeter (d : Calorimeter α) :
    (ofCalorimeter d).clear = ofCalorimeter d.clear := by
  simp [clear, ofCalorimeter, Calorimeter.clear, Function.comp_def]

/-- A change of a channel that keeps its place and its mark shows in two tables at most. -/
theorem ofCalorimeter_modify (d : Calorimeter α) (i : Nat) {f : Channel α → Channel α}
    (hid : ∀ c, (f c).block.id = c.block.id) (hplace : ∀ c, (f c).block.place = c.block.place)
    (hdead : ∀ c, (f c).dead = c.dead) :
    ofCalorimeter (d.modify i f) = { ofCalorimeter d with
      blocks := ((d.channels.modify i f).map (·.block)).toArray
      energies := ((d.channels.modify i f).map (·.energy)).toArray } := by
  have hids : (d.channels.modify i f).map (·.block.id) = d.channels.map (·.block.id) :=
    map_modify_of_eq fun c _ => hid c
  have hmarks : (d.channels.modify i f).map (·.dead) = d.channels.map (·.dead) :=
    map_modify_of_eq fun c _ => hdead c
  have hplaces : (d.channels.modify i f).map (fun c => (c.block.place, c.dead)) =
      d.channels.map fun c => (c.block.place, c.dead) :=
    map_modify_of_eq fun c _ => by rw [hplace, hdead]
  simp only [ofCalorimeter, Calorimeter.modify, hids, hmarks, hplaces]

theorem setCalibration_ofCalorimeter (d : Calorimeter α) (id : Int) (calibration : Calibration α) :
    (ofCalorimeter d).setCalibration id calibration =
      some (ofCalorimeter (d.setCalibration id calibration).1,
        (d.setCalibration id calibration).2) := by
  rw [setCalibration, indices_ofCalorimeter, Calorimeter.setCalibration]
  cases h : d.index? id with
  | none => rfl
  | some i =>
    obtain ⟨c, hc, _⟩ := Calorimeter.block_of_index? h
    have hedit : edit (ofCalorimeter d).blocks i (fun b => some { b with calibration }) =
        some ((d.channels.modify i (Calorimeter.withCalibration · calibration)).map
          (·.block)).toArray := edit_field hc rfl
    have hmodify := ofCalorimeter_modify d i (f := (Calorimeter.withCalibration · calibration))
      (fun _ => rfl) (fun _ => rfl) fun _ => rfl
    have henergies : (d.channels.modify i (Calorimeter.withCalibration · calibration)).map
        (·.energy) = d.channels.map (·.energy) := map_modify_of_eq fun _ _ => rfl
    rw [henergies] at hmodify
    simp only [hedit, Option.bind_eq_bind, Option.bind_some, hmodify]
    rfl

theorem applyCalibrations_ofCalorimeter (d : Calorimeter α) (cs : List (BlockCalibration α)) :
    (ofCalorimeter d).applyCalibrations cs =
      some (ofCalorimeter (d.applyCalibrations cs).1, (d.applyCalibrations cs).2) := by
  induction cs generalizing d with
  | nil => rfl
  | cons c cs ih =>
    rw [applyCalibrations, setCalibration_ofCalorimeter]
    simp only [Option.bind_eq_bind, Option.bind_some, ih]
    rfl

theorem addEnergy_ofCalorimeter (d : Calorimeter α) (id : Int) (energy : α) :
    (ofCalorimeter d).addEnergy id energy =
      some (ofCalorimeter (d.addEnergy id energy).1, (d.addEnergy id energy).2) := by
  rw [addEnergy, indices_ofCalorimeter, Calorimeter.addEnergy]
  cases h : d.index? id with
  | none => rfl
  | some i =>
    obtain ⟨c, hc, _⟩ := Calorimeter.block_of_index? h
    have hread : (ofCalorimeter d).dead[i]? = some c.dead := by simp [ofCalorimeter, hc]
    simp only [hread, hc, Option.bind_eq_bind, Option.bind_some, Option.map_some, Option.getD_some]
    by_cases hdead : c.dead
    · rw [if_pos hdead, if_pos hdead]
    · rw [if_neg hdead, if_neg hdead]
      by_cases hpos : 0 < energy
      · have hedit : edit (ofCalorimeter d).energies i (fun e => some (e + energy)) =
            some ((d.channels.modify i fun c => { c with energy := c.energy + energy }).map
              (·.energy)).toArray := edit_field hc rfl
        have hmodify := ofCalorimeter_modify d i
          (f := fun c => { c with energy := c.energy + energy })
          (fun _ => rfl) (fun _ => rfl) fun _ => rfl
        have hblocks : (d.channels.modify i fun c => { c with energy := c.energy + energy }).map
            (·.block) = d.channels.map (·.block) := map_modify_of_eq fun _ _ => rfl
        rw [hblocks] at hmodify
        rw [if_pos hpos, if_pos hpos, hedit, hmodify]
        rfl
      · rw [if_neg hpos, if_neg hpos]

theorem measured_ofCalorimeter (d : Calorimeter α) :
    (ofCalorimeter d).measured = some d.measured := by
  have hread : (ofCalorimeter d).blocks.toList.zipIdx.mapM
      (fun x => ((ofCalorimeter d).energies[x.2]?).map fun e => (x.1, e)) =
        some (d.channels.map fun c => (c.block, c.energy)) := by
    have hblocks : (ofCalorimeter d).blocks.toList.zipIdx =
        d.channels.zipIdx.map fun x => (x.1.block, x.2) := List.zipIdx_map
    have hread : ∀ x ∈ d.channels.zipIdx, ((ofCalorimeter d).energies[x.2]?).map
        (fun e => (x.1.block, e)) = some (x.1.block, x.1.energy) := by
      intro x hx
      have hc := List.mem_zipIdx_iff_getElem?.mp hx
      simp [ofCalorimeter, hc]
    rw [hblocks, List.mapM_map]
    refine (mapM_eq hread).trans ?_
    conv_rhs => rw [← List.zipIdx_map_fst 0 d.channels, List.map_map]
    rfl
  rw [measured, hread, Calorimeter.measured]
  simp [List.filter_map, Function.comp_def]

theorem calibration_ofCalorimeter (d : Calorimeter α) (id : Int) :
    (ofCalorimeter d).calibration id =
      some (((d.block? id).map (·.calibration)).getD .none) := by
  rw [calibration, indices_ofCalorimeter, Calorimeter.block?, Calorimeter.channel?]
  cases h : d.index? id with
  | none => rfl
  | some i =>
    obtain ⟨c, hc, _⟩ := Calorimeter.block_of_index? h
    simp [ofCalorimeter, hc]

theorem deadNeighbors_ofCalorimeter (d : Calorimeter α) (id : Int) :
    (ofCalorimeter d).deadNeighbors id = some (d.deadNeighbors id) := by
  rw [deadNeighbors, indices_ofCalorimeter, Calorimeter.deadNeighbors]
  cases h : d.index? id with
  | none => rfl
  | some i =>
    obtain ⟨c, hc, _⟩ := Calorimeter.block_of_index? h
    have hneighbors : (ofCalorimeter d).neighbors[i]? =
        some ((d.channels.zipIdx.filter fun y => y.2 != i && y.1.dead &&
          c.block.place.distance y.1.block.place < cornerAdjacent).map (·.2)) := by
      simp [ofCalorimeter, hc, deadAround, List.zipIdx_map, List.filter_map, Function.comp_def]
    have hread : ∀ y ∈ d.channels.zipIdx.filter fun y => y.2 != i && y.1.dead &&
        c.block.place.distance y.1.block.place < cornerAdjacent,
        ((ofCalorimeter d).blocks[y.2]?).map (·.hit 0) = some (y.1.block.hit 0) := by
      intro y hy
      have hy' := List.mem_zipIdx_iff_getElem?.mp (List.mem_of_mem_filter hy)
      simp [ofCalorimeter, hy']
    simp only [hneighbors, hc, Option.bind_eq_bind, Option.bind_some, List.mapM_map]
    exact mapM_eq hread

theorem foldlM_mark (d : Calorimeter α) (ids : List Int) (f : Nat → Bool) :
    ids.foldlM (ofCalorimeter d).mark ((List.range d.channels.length).map f).toArray =
      some ((List.range d.channels.length).map fun k =>
        f k || (ids.filterMap d.index?).contains k).toArray := by
  induction ids generalizing f with
  | nil => simp
  | cons id ids ih =>
    rw [List.foldlM_cons, mark, indices_ofCalorimeter]
    cases h : d.index? id with
    | none =>
      rw [List.filterMap_cons_none h]
      exact ih f
    | some i =>
      obtain ⟨c, hc, _⟩ := Calorimeter.block_of_index? h
      have hput : put ((List.range d.channels.length).map f).toArray i true =
          some ((List.range d.channels.length).map fun k => if i = k then true else f k).toArray :=
        edit_range (List.getElem?_eq_some_iff.mp hc).1 f rfl
      have hsame : (fun k => (if i = k then true else f k) || (ids.filterMap d.index?).contains k) =
          fun k => f k || (i :: ids.filterMap d.index?).contains k := by
        funext k
        by_cases hk : i = k
        · simp [hk]
        · simp [hk, Ne.symm hk]
      simp only [hput, Option.bind_eq_bind, Option.bind_some, ih, hsame,
        List.filterMap_cons_some h]

section Neighbors

variable {a : Arena α} {cs : List (Channel α)} (hblocks : a.blocks = (cs.map (·.block)).toArray)

include hblocks

theorem foldlM_hang (b : Block α) {others : List (Channel α × Nat)}
    (hothers : ∀ y ∈ others, cs[y.2]? = some y.1) (pre post : List (List Nat)) (js : List Nat) :
    (others.map (·.2)).foldlM (a.hang b pre.length) (pre ++ js :: post).toArray =
      some (pre ++ (js ++ (others.filter fun y => y.2 != pre.length &&
        b.place.distance y.1.block.place < cornerAdjacent).map (·.2)) :: post).toArray := by
  induction others generalizing js with
  | nil => simp
  | cons y others ih =>
    have hread : a.blocks[y.2]? = some y.1.block := by
      simp [hblocks, hothers y List.mem_cons_self]
    have hrest := ih fun z hz => hothers z (List.mem_cons_of_mem y hz)
    rw [List.map_cons, List.foldlM_cons, hang]
    by_cases hself : y.2 = pre.length
    · simp only [if_pos hself, Option.bind_eq_bind, Option.bind_some, hrest]
      simp [hself]
    · have hdistance : (b.hit 0).distance (y.1.block.hit 0) =
          b.place.distance y.1.block.place := rfl
      simp only [if_neg hself, hread, hdistance, Option.bind_eq_bind, Option.bind_some]
      by_cases hnear : b.place.distance y.1.block.place < cornerAdjacent
      · simp only [if_pos hnear, edit_middle, Option.map_some, Option.bind_some, hrest]
        simp [hself, hnear]
      · simp only [if_neg hnear, Option.bind_some, hrest]
        simp [hnear]

theorem foldlM_hangAll {neighbors : Array (List Nat)} (hsize : neighbors.size = cs.length)
    (hempty : ∀ js ∈ neighbors, js = []) :
    a.blocks.toList.zipIdx.foldlM (fun neighbors x =>
        ((cs.zipIdx.filter (·.1.dead)).map (·.2)).foldlM (a.hang x.1 x.2) neighbors) neighbors =
      some ((cs.map fun c => (c.block.place, c.dead)).zipIdx.map
        (deadAround (cs.map fun c => (c.block.place, c.dead)))).toArray := by
  have hread : ∀ y ∈ cs.zipIdx.filter (·.1.dead), cs[y.2]? = some y.1 := fun y hy =>
    List.mem_zipIdx_iff_getElem?.mp (List.mem_of_mem_filter hy)
  have hrows : (cs.map fun c => (c.block.place, c.dead)).zipIdx.map
      (deadAround (cs.map fun c => (c.block.place, c.dead))) =
        a.blocks.toList.zipIdx.map fun x => ((cs.zipIdx.filter (·.1.dead)).filter fun y =>
          y.2 != x.2 && x.1.place.distance y.1.block.place < cornerAdjacent).map (·.2) := by
    rw [hblocks, List.zipIdx_map, List.zipIdx_map, List.map_map, List.map_map]
    apply List.map_congr_left
    intro x _
    simp [deadAround, List.zipIdx_map, List.filter_map, Function.comp_def, List.filter_filter,
      Bool.and_assoc, Bool.and_comm]
  rw [hrows]
  apply foldlM_tabulate (by simpa [hblocks] using hsize) hempty
  rintro b pre js post _ rfl
  exact foldlM_hang hblocks b hread pre post []

end Neighbors

theorem setDead_ofCalorimeter (d : Calorimeter α) (ids : List Int) :
    (ofCalorimeter d).setDead ids = some (ofCalorimeter (d.setDead ids)) := by
  have hclear : (ofCalorimeter d).dead.map (fun _ => false) =
      ((List.range d.channels.length).map fun _ => false).toArray := by
    simp [ofCalorimeter, List.map_const']
  have hmarks := foldlM_mark d ids fun _ => false
  have hdead : ((List.range d.channels.length).map fun k =>
      false || (ids.filterMap d.index?).contains k) = (d.setDead ids).channels.map (·.dead) := by
    simp only [Calorimeter.setDead, List.map_map, Bool.false_or]
    conv_lhs => rw [List.range_eq_range', ← List.zipIdx_map_snd 0 d.channels, List.map_map]
    rfl
  have hkept : ∀ {γ : Type} (g : Channel α → γ), (∀ c b, g { c with dead := b } = g c) →
      (d.setDead ids).channels.map g = d.channels.map g := by
    intro γ g hg
    conv_rhs => rw [← List.zipIdx_map_fst 0 d.channels, List.map_map]
    rw [Calorimeter.setDead, List.map_map]
    exact List.map_congr_left fun x _ => hg x.1 _
  have hblocks : (ofCalorimeter d).blocks = ((d.setDead ids).channels.map (·.block)).toArray :=
    congrArg List.toArray (hkept (·.block) fun _ _ => rfl).symm
  have hlength : d.channels.length = (d.setDead ids).channels.length := by
    simp [Calorimeter.setDead]
  have hsize : ((ofCalorimeter d).neighbors.map fun _ => ([] : List Nat)).size =
      (d.setDead ids).channels.length := by
    simp [ofCalorimeter, hlength]
  have hhang := foldlM_hangAll hblocks hsize (by simp)
  have hpositions : ((((d.setDead ids).channels.map (·.dead)).toArray.toList.zipIdx).filter
      (·.1)).map (·.2) = ((d.setDead ids).channels.zipIdx.filter (·.1.dead)).map (·.2) := by
    simp [List.zipIdx_map, List.filter_map, Function.comp_def]
  rw [hdead, ← hclear] at hmarks
  simp only [setDead, hmarks, Option.bind_eq_bind, Option.bind_some, hpositions, hhang]
  rw [hblocks]
  simp only [ofCalorimeter, hkept (·.block.id) fun _ _ => rfl, hkept (·.energy) fun _ _ => rfl]
  rfl

end Arithmetic

variable [Elementary α]

def blockClusters (s : CaloSettings α) (p : Profile α) (hits : List (BlockHit α)) :
    Option (List (BlockCluster α)) :=
  match s.method with
  | .square => squareClusters s hits
  | .island => islandClusters s p hits
  | .primex => primexClusters s p hits

def tally (a : Arena α) (s : CaloSettings α) (p : Profile α) (t : Calorimeter.Tally α)
    (c : BlockCluster α) : Option (Calorimeter.Tally α) :=
  if s.accepts c then do
    let dead ← a.deadNeighbors c.center.id
    let c ← recoverLeakage s p dead c
    if maxCaloHits ≤ t.hits.length then
      some { t with clusters := t.clusters ++ [c], overflow := t.overflow + 1 }
    else
      let calibration ← a.calibration c.center.id
      some { t with
        clusters := t.clusters ++ [c]
        hits := t.hits ++ [s.reconstruct calibration c] }
  else some { t with clusters := t.clusters ++ [c] }

def reconstructBy (a : Arena α) (form : List (BlockHit α) → Option (List (BlockCluster α)))
    (s : CaloSettings α) (p : Profile α) : Option (Arena α) := do
  let blockHits ← a.measured
  let clusters ← form blockHits
  let t ← clusters.foldlM (a.tally s p) ⟨[], [], 0⟩
  some { a with blockHits, clusters := t.clusters, hits := t.hits, overflow := t.overflow }

def reconstruct (a : Arena α) (s : CaloSettings α) (p : Profile α) : Option (Arena α) :=
  a.reconstructBy (blockClusters s p) s p

variable {p : Profile α} (hp : p.Full)

include hp

theorem blockClusters_eq (s : CaloSettings α) (hits : List (BlockHit α)) :
    blockClusters s p hits = some (s.clusters p hits) := by
  rw [blockClusters, CaloSettings.clusters]
  cases s.method with
  | square => exact squareClusters_eq s hits
  | island => exact islandClusters_eq s hp hits
  | primex => exact primexClusters_eq s hp hits

theorem tally_ofCalorimeter (d : Calorimeter α) (s : CaloSettings α) (t : Calorimeter.Tally α)
    (c : BlockCluster α) : (ofCalorimeter d).tally s p t c = some (d.tally s p t c) := by
  rw [tally, Calorimeter.tally]
  by_cases haccepts : s.accepts c = true
  · simp only [if_pos haccepts, deadNeighbors_ofCalorimeter, recoverLeakage_eq s hp,
      calibration_ofCalorimeter, Option.bind_eq_bind, Option.bind_some, Calorimeter.finish]
    split
    · rfl
    · rfl
  · rw [if_neg haccepts, if_neg haccepts]

theorem reconstructBy_ofCalorimeter (d : Calorimeter α) (s : CaloSettings α)
    {checked : List (BlockHit α) → Option (List (BlockCluster α))}
    {form : List (BlockHit α) → List (BlockCluster α)}
    (hform : ∀ hits, checked hits = some (form hits)) :
    (ofCalorimeter d).reconstructBy checked s p =
      some (ofCalorimeter (d.reconstructBy form s p)) := by
  have htally := fun t cs => (foldlM_eq (P := fun _ => True) (l := cs)
    (fun t _ c _ => ⟨tally_ofCalorimeter hp d s t c, trivial⟩) (s := t) trivial).1
  simp only [reconstructBy, measured_ofCalorimeter, hform, htally,
    Option.bind_eq_bind, Option.bind_some]
  rfl

theorem reconstruct_ofCalorimeter (d : Calorimeter α) (s : CaloSettings α) :
    (ofCalorimeter d).reconstruct s p = some (ofCalorimeter (d.reconstruct s p)) :=
  reconstructBy_ofCalorimeter hp d s (blockClusters_eq hp s)

end Arena

end ShowerTrack.Checked
