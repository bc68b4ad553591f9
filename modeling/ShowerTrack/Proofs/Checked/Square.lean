import ShowerTrack.Calorimeter.Square
import ShowerTrack.Proofs.Checked.Island
import ShowerTrack.Proofs.Drawn

/-!
# Checked square windows

Seeds are positions in the list of hits and windows positions in the list of seeds. A stronger
maximum takes a window over by overwriting its seed.
-/

set_option autoImplicit false

namespace ShowerTrack.Square

theorem inWindow_of_owner? {α : Type} [Scalar α] {size : Nat} {seeds : List (Numbered α)}
    {hit : BlockHit α} {pos : Nat} (h : owner? size seeds hit = some pos) :
    ∃ seed, seeds[pos]? = some seed ∧ inWindow size seed.1 hit = true := by
  obtain ⟨key, hkey, rfl⟩ := Option.map_eq_some_iff.mp h
  have hne : ((seeds.zipIdx.filter fun w => inWindow size w.1.1 hit).map fun w =>
      (w.1.1.nearness hit, w.2)) ≠ [] := by
    intro hnil
    rw [hnil] at hkey
    cases hkey
  obtain ⟨key', hmem, hkey'⟩ := firstLeast?_mem (fun a b => nearer a.1 b.1) hne
  obtain rfl : key = key' := Option.some.inj (hkey.symm.trans hkey')
  obtain ⟨w, hw, rfl⟩ := List.mem_map.mp hmem
  obtain ⟨hw, hinside⟩ := List.mem_filter.mp hw
  exact ⟨w.1, List.mem_zipIdx_iff_getElem?.mp hw, hinside⟩

end ShowerTrack.Square

namespace ShowerTrack.Checked

variable {α : Type}

structure Stores (hits : List (BlockHit α)) (seeds : Array Nat)
    (windows : List (Square.Numbered α)) : Prop where
  seeds : seeds = (windows.map Prod.snd).toArray
  positions : Positions hits windows

theorem Stores.free {hits : List (BlockHit α)} {seeds : Array Nat}
    {windows : List (Square.Numbered α)} (h : Stores hits seeds windows) (i : Nat) :
    (windows.all fun w => w.2 != i) = !seeds.contains i := by
  have hnumbers : (∀ a b, (a, b) ∈ windows → ¬ b = i) ↔ ∀ a, (a, i) ∉ windows :=
    ⟨fun hall a ha => hall a i ha rfl, fun hnone a b hab heq => hnone a (heq ▸ hab)⟩
  rw [Bool.eq_iff_iff, h.seeds]
  simpa using hnumbers

variable [Scalar α]

def inWindowAt (size : Nat) (hits : List (BlockHit α)) (hit : BlockHit α) (i : Nat) :
    Option Bool := do
  let seed ← hits[i]?
  some (Square.inWindow size seed hit)

def placeSeed (s : CaloSettings α) (hits : List (BlockHit α)) (seeds : Array Nat)
    (x : BlockHit α × Nat) : Option (Array Nat) :=
  if Square.isSeed s hits x.1 then do
    let inside ← seeds.toList.mapM (inWindowAt s.squareSize hits x.1)
    match inside.findIdx? id with
    | none => some (seeds.push x.2)
    | some pos =>
      let i ← seeds[pos]?
      let seed ← hits[i]?
      if seed.energy < x.1.energy then put seeds pos x.2 else some seeds
  else some seeds

def seeds (s : CaloSettings α) (hits : List (BlockHit α)) : Option (Array Nat) :=
  hits.zipIdx.foldlM (placeSeed s hits) #[]

def windowAt (size : Nat) (hits : List (BlockHit α)) (hit : BlockHit α) (x : Nat × Nat) :
    Option (Bool × (Nat × α) × Nat) := do
  let seed ← hits[x.1]?
  some (Square.inWindow size seed hit, seed.nearness hit, x.2)

def owner (size : Nat) (hits : List (BlockHit α)) (seeds : Array Nat) (hit : BlockHit α) :
    Option (Option Nat) := do
  let windows ← seeds.toList.zipIdx.mapM (windowAt size hits hit)
  some ((firstLeast? (fun a b => nearer a.1 b.1) ((windows.filter (·.1)).map (·.2))).map (·.2))

def give (s : CaloSettings α) (hits : List (BlockHit α)) (seeds : Array Nat)
    (clusters : Array (BlockCluster α)) (x : BlockHit α × Nat) :
    Option (Array (BlockCluster α)) :=
  if seeds.contains x.2 then some clusters
  else do
    match ← owner s.squareSize hits seeds x.1 with
    | none => some clusters
    | some pos => edit clusters pos fun c => some (c.add x.1)

def squareClusters (s : CaloSettings α) (hits : List (BlockHit α)) :
    Option (List (BlockCluster α)) := do
  let hits := hits.filter fun hit => s.minBlockEnergy ≤ hit.energy
  let seeds ← seeds s hits
  let singles ← seeds.toList.mapM (hits[·]?)
  let clusters ← hits.zipIdx.foldlM (give s hits seeds) (singles.map BlockCluster.single).toArray
  some clusters.toList

/-- The window that a maximum lies in is the one that is found. -/
theorem findIdx?_windows (size : Nat) (windows : List (Square.Numbered α))
    (x : Square.Numbered α) :
    ((windows.map fun w => Square.inWindow size w.1 x.1).findIdx? id = none ∧
      Square.placeSeed size windows x = windows ++ [x]) ∨
    ∃ pre w post, windows = pre ++ w :: post ∧
      (windows.map fun w => Square.inWindow size w.1 x.1).findIdx? id = some pre.length ∧
      Square.placeSeed size windows x =
        pre ++ (if w.1.energy < x.1.energy then x else w) :: post := by
  have hnone : ∀ ws : List (Square.Numbered α), (∀ w ∈ ws, Square.inWindow size w.1 x.1 = false) →
      (ws.map fun w => Square.inWindow size w.1 x.1).findIdx? id = none := by
    intro ws hout
    rw [List.findIdx?_eq_none_iff, List.forall_mem_map]
    exact hout
  rcases Square.placeSeed_cases size windows x with
    ⟨hout, hopens⟩ | ⟨pre, w, post, rfl, hfront, hinside, hput⟩
  · exact .inl ⟨hnone windows hout, hopens⟩
  · refine .inr ⟨pre, w, post, rfl, ?_, hput⟩
    rw [List.map_append, List.findIdx?_append, hnone pre hfront, List.map_cons, List.findIdx?_cons,
      hinside]
    simp

section Seeds

theorem Stores.place {s : CaloSettings α} {hits : List (BlockHit α)} {seeds : Array Nat}
    {windows : List (Square.Numbered α)} (h : Stores hits seeds windows) {x : Square.Numbered α}
    (hx : hits[x.2]? = some x.1) (hseed : Square.isSeed s hits x.1 = true) :
    ∃ seeds', placeSeed s hits seeds x = some seeds' ∧
      Stores hits seeds' (Square.placeSeed s.squareSize windows x) := by
  have hinside : seeds.toList.mapM (inWindowAt s.squareSize hits x.1) =
      some (windows.map fun w => Square.inWindow s.squareSize w.1 x.1) := by
    rw [h.seeds, List.mapM_map]
    apply mapM_eq
    intro w hw
    simp [inWindowAt, h.positions w hw]
  rw [placeSeed, if_pos hseed, hinside, Option.bind_eq_bind, Option.bind_some]
  rcases findIdx?_windows s.squareSize windows x with
    ⟨hnone, hplaced⟩ | ⟨pre, w, post, rfl, hfound, hplaced⟩
  · rw [hnone, hplaced]
    refine ⟨seeds.push x.2, rfl, by rw [h.seeds]; simp, ?_⟩
    intro m hm
    rcases List.mem_append.mp hm with hold | hnew
    · exact h.positions m hold
    · rw [List.mem_singleton.mp hnew]
      exact hx
  · have hw : hits[w.2]? = some w.1 := h.positions w (by simp)
    have hread : seeds[pre.length]? = some w.2 := by simp [h.seeds]
    have hpositions :
        Positions hits (pre ++ (if w.1.energy < x.1.energy then x else w) :: post) := by
      intro m hm
      rcases List.mem_append.mp hm with hpre | hpost
      · exact h.positions m (List.mem_append_left _ hpre)
      · rcases List.mem_cons.mp hpost with rfl | hpost
        · split
          · exact hx
          · exact hw
        · exact h.positions m (by simp [hpost])
    rw [hfound, hplaced]
    simp only [hread, hw, Option.bind_eq_bind, Option.bind_some]
    by_cases hstronger : w.1.energy < x.1.energy
    · rw [if_pos hstronger, if_pos hstronger]
      have hput := edit_middle (pre.map Prod.snd) (post.map Prod.snd) w.2 fun _ => some x.2
      rw [List.length_map] at hput
      refine ⟨((pre ++ x :: post).map Prod.snd).toArray, ?_, rfl,
        by simpa [hstronger] using hpositions⟩
      rw [h.seeds, List.map_append, List.map_append]
      exact hput
    · rw [if_neg hstronger, if_neg hstronger]
      exact ⟨seeds, rfl, by simp [h.seeds], by simpa [hstronger] using hpositions⟩

theorem seeds_eq (s : CaloSettings α) (hits : List (BlockHit α)) :
    ∃ seeds', seeds s hits = some seeds' ∧ Stores hits seeds' (Square.seeds s hits) := by
  have hempty : Stores hits #[] [] := ⟨rfl, fun _ hm => absurd hm List.not_mem_nil⟩
  obtain ⟨seeds', hseeds, hstores⟩ := foldlM_related (f := placeSeed s hits)
    (g := fun windows x => if Square.isSeed s hits x.1 then
      Square.placeSeed s.squareSize windows x else windows) (R := Stores hits)
    (l := hits.zipIdx) (by
      intro seeds windows h x hx
      by_cases hseed : Square.isSeed s hits x.1 = true
      · rw [if_pos hseed]
        exact h.place (List.mem_zipIdx_iff_getElem?.mp hx) hseed
      · rw [if_neg hseed]
        exact ⟨seeds, by rw [placeSeed, if_neg hseed], h⟩) hempty
  refine ⟨seeds', hseeds, ?_⟩
  rw [Square.seeds, List.foldl_filter]
  exact hstores

end Seeds

section Windows

variable {s : CaloSettings α} {hits : List (BlockHit α)} {seeds : Array Nat}
  {windows : List (Square.Numbered α)} (h : Stores hits seeds windows)

theorem owner?_lt (size : Nat) (windows : List (Square.Numbered α)) {hit : BlockHit α} {pos : Nat}
    (h : Square.owner? size windows hit = some pos) : pos < windows.length := by
  obtain ⟨w, hw, _⟩ := Square.inWindow_of_owner? h
  exact (List.getElem?_eq_some_iff.mp hw).1

include h

theorem owner_eq (size : Nat) (hit : BlockHit α) :
    owner size hits seeds hit = some (Square.owner? size windows hit) := by
  have hwindows : seeds.toList.zipIdx.mapM (windowAt size hits hit) =
      some (windows.zipIdx.map fun w =>
        (Square.inWindow size w.1.1 hit, w.1.1.nearness hit, w.2)) := by
    have hnumbers : (windows.map Prod.snd).zipIdx = windows.zipIdx.map fun w => (w.1.2, w.2) :=
      List.zipIdx_map
    rw [h.seeds, List.toList_toArray, hnumbers, List.mapM_map]
    apply mapM_eq
    intro w hw
    simp [windowAt, h.positions w.1 (List.fst_mem_of_mem_zipIdx hw)]
  rw [owner, hwindows]
  simp [Square.owner?, List.filter_map, Function.comp_def]

/-- Giving out hits, one after the other, gives every window those that it owns. -/
theorem foldlM_give (f : Nat → BlockCluster α) (xs : List (BlockHit α × Nat)) :
    xs.foldlM (give s hits seeds) ((List.range windows.length).map f).toArray =
      some ((List.range windows.length).map fun k => (f k).addAll
        (((((xs.filter fun x => windows.all fun w => w.2 != x.2).map Prod.fst).map fun hit =>
          (hit, Square.owner? s.squareSize windows hit)).filter (·.2 == some k)).map
            (·.1))).toArray := by
  induction xs generalizing f with
  | nil => rfl
  | cons x xs ih =>
    rw [List.foldlM_cons, Option.bind_eq_bind]
    have hfree := h.free x.2
    by_cases hseed : seeds.contains x.2 = true
    · rw [hseed] at hfree
      rw [give, if_pos hseed, Option.bind_some, ih]
      simp [hfree]
    · rw [Bool.eq_false_of_not_eq_true hseed] at hfree
      rw [give, if_neg hseed, owner_eq h, Option.bind_eq_bind, Option.bind_some]
      cases howner : Square.owner? s.squareSize windows x.1 with
      | none =>
        simp only [Option.bind_some, ih]
        simp [hfree, howner]
      | some pos =>
        have hstep := edit_range (owner?_lt _ _ howner) f (e := fun c => some (c.add x.1)) rfl
        simp only [hstep, Option.bind_some, ih]
        congr 3
        funext k
        by_cases hk : pos = k
        · simp [hfree, howner, hk, BlockCluster.addAll]
        · simp [hfree, howner, hk]

end Windows

theorem squareClusters_eq (s : CaloSettings α) (hits : List (BlockHit α)) :
    squareClusters s hits = some (Square.clusters s hits) := by
  generalize hlive : (hits.filter fun hit => s.minBlockEnergy ≤ hit.energy) = live
  obtain ⟨seeds', hseeds, hstores⟩ := seeds_eq s live
  have hsingles : seeds'.toList.mapM (live[·]?) =
      some ((Square.seeds s live).map Prod.fst) := by
    rw [hstores.seeds, List.mapM_map]
    exact mapM_eq hstores.positions
  have hstart : ((Square.seeds s live).map Prod.fst).map BlockCluster.single =
      (List.range (Square.seeds s live).length).map fun k =>
        (((Square.seeds s live)[k]?).map fun seed => BlockCluster.single seed.1).getD .empty := by
    apply List.ext_getElem
    · simp
    · intro k hk _
      have hbound : k < (Square.seeds s live).length := by simpa using hk
      simp [hbound]
  simp only [squareClusters, hlive, hseeds, hsingles, hstart, foldlM_give hstores,
    Option.bind_eq_bind, Option.bind_some, Square.clusters]
  congr 1
  apply List.ext_getElem
  · simp
  · intro k hk _
    have hbound : k < (Square.seeds s live).length := by simpa using hk
    simp [hbound, Square.window]

end ShowerTrack.Checked
