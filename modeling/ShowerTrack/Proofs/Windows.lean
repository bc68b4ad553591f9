import ShowerTrack.Proofs.Drawn
import ShowerTrack.Proofs.Exact

/-!
# Windows

A maximum opens a window only where no window is open, and takes one over only from a weaker
maximum that came before. So the seeds that stand in the order of their hits lie outside each
other's windows. A seed that stands before an earlier hit has taken its window over, and may have
moved it onto other seeds.
-/

set_option autoImplicit false

namespace ShowerTrack

/-- Scalars in which the size of a normalized separation does not depend on its direction. -/
class Scalar.Mirrored (α : Type) [Scalar α] : Prop where
  abs_swap (x y s t : α) :
    Scalar.abs (2 * (y - x) / (s + t)) = Scalar.abs (2 * (x - y) / (t + s))

instance {α : Type} [Exact α] : Scalar.Mirrored α where
  abs_swap x y s t := by
    have hopposite : 2 * (y - x) / (s + t) = -(2 * (x - y) / (t + s)) := by
      rw [add_comm t s]
      ring
    rw [Exact.abs_eq, Exact.abs_eq, hopposite, abs_neg]

instance : Scalar.Mirrored Float32 where
  abs_swap x y s t :=
    congrArg (fun m => Float32.ofModel (Float32.Model.pack m))
      (SinglePrecision.abs_separation_swap (2 : Float32).toModel x.toModel y.toModel s.toModel
        t.toModel)

/-- Another entry in one place leaves the other places as they are. -/
theorem getElem?_replaced {β : Type} {front back : List β} {i : Nat} (hi : i ≠ front.length)
    (a c : β) : (front ++ a :: back)[i]? = (front ++ c :: back)[i]? := by
  rcases Nat.lt_or_gt_of_ne hi with hlt | hgt
  · rw [List.getElem?_append_left hlt, List.getElem?_append_left hlt]
  · obtain ⟨k, hk⟩ := Nat.exists_eq_add_of_lt hgt
    subst hk
    simp [List.getElem?_append_right, Nat.add_assoc]

namespace Square

variable {α : Type} [Scalar α]

def Apart (size : Nat) (a b : BlockHit α) : Prop :=
  inWindow size a b = false ∧ inWindow size b a = false

theorem inWindow_comm [Scalar.Mirrored α] (size : Nat) (a b : BlockHit α) :
    inWindow size a b = inWindow size b a := by
  have hx : Scalar.abs (a.place.spacing b.place).1 = Scalar.abs (b.place.spacing a.place).1 :=
    Scalar.Mirrored.abs_swap _ _ _ _
  have hy : Scalar.abs (a.place.spacing b.place).2 = Scalar.abs (b.place.spacing a.place).2 :=
    Scalar.Mirrored.abs_swap _ _ _ _
  simp only [inWindow, hx, hy]

theorem maxima_sorted (s : CaloSettings α) (hits : List (BlockHit α)) :
    (maxima s hits).Pairwise fun a b => a.2 < b.2 :=
  (zipIdx_sorted hits).filter _

/-- The seeds that are there when the turn of a maximum comes. -/
def AtTurn (s : CaloSettings α) (hits : List (BlockHit α)) (x : Numbered α)
    (placed : List (Numbered α)) : Prop :=
  ∃ before later, maxima s hits = before ++ x :: later ∧
    placed = before.foldl (placeSeed s.squareSize) []

section Turns

variable {s : CaloSettings α} {hits : List (BlockHit α)} {x : Numbered α}
  {placed : List (Numbered α)}

theorem AtTurn.earlier (h : AtTurn s hits x placed) :
    ∀ w ∈ placed, w ∈ maxima s hits ∧ w.2 < x.2 := by
  obtain ⟨before, later, hsplit, rfl⟩ := h
  intro w hw
  have hbefore := (mem_foldl_placeSeed hw).resolve_left List.not_mem_nil
  have hsorted := maxima_sorted s hits
  rw [hsplit] at hsorted ⊢
  exact ⟨List.mem_append_left _ hbefore,
    (List.pairwise_append.mp hsorted).2.2 w hbefore x List.mem_cons_self⟩

/-- After the turn of a maximum the later ones have theirs. -/
theorem AtTurn.exists_later (h : AtTurn s hits x placed) : ∃ later : List (Numbered α),
    seeds s hits = later.foldl (placeSeed s.squareSize) (placeSeed s.squareSize placed x) ∧
      ∀ y ∈ later, x.2 < y.2 := by
  obtain ⟨before, later, hsplit, rfl⟩ := h
  have hseeds : seeds s hits = (maxima s hits).foldl (placeSeed s.squareSize) [] := rfl
  have hsorted := maxima_sorted s hits
  rw [hsplit] at hsorted
  refine ⟨later, ?_, (List.pairwise_cons.mp (List.pairwise_append.mp hsorted).2.1).1⟩
  rw [hseeds, hsplit, List.foldl_append, List.foldl_cons]

/-- What holds of no seeds, and is kept at every turn, holds after any number of turns. -/
theorem placed_induction {motive : List (Numbered α) → Prop} (start : motive [])
    (step : ∀ x placed, AtTurn s hits x placed → motive placed →
      motive (placeSeed s.squareSize placed x)) {xs : List (Numbered α)}
    (h : xs <+: maxima s hits) : motive (xs.foldl (placeSeed s.squareSize) []) := by
  induction xs using List.reverseRecOn with
  | nil => exact start
  | append_singleton xs x ih =>
    rw [List.foldl_append]
    obtain ⟨later, hlater⟩ := h
    rw [List.append_assoc] at hlater
    exact step x _ ⟨xs, later, hlater.symm, rfl⟩ (ih ⟨[x] ++ later, hlater⟩)

theorem seeds_induction {motive : List (Numbered α) → Prop} (start : motive [])
    (step : ∀ x placed, AtTurn s hits x placed → motive placed →
      motive (placeSeed s.squareSize placed x)) : motive (seeds s hits) :=
  placed_induction start step (List.prefix_refl _)

theorem AtTurn.nodup_placeSeed (h : AtTurn s hits x placed) (hn : (placed.map Prod.snd).Nodup) :
    ((placeSeed s.squareSize placed x).map Prod.snd).Nodup := by
  have hnew : x.2 ∉ placed.map Prod.snd := by
    intro hx
    obtain ⟨w, hw, heq⟩ := List.mem_map.mp hx
    exact absurd heq (h.earlier w hw).2.ne
  rcases placeSeed_cases s.squareSize placed x with ⟨_, hopens⟩ | ⟨front, w, back, rfl, _, _, hput⟩
  · rw [hopens, List.map_append, List.nodup_append_comm]
    exact List.nodup_cons.mpr ⟨hnew, hn⟩
  · rw [hput]
    split
    · rw [List.map_append, List.map_cons, List.nodup_middle, List.nodup_cons] at hn ⊢
      rw [List.map_append, List.map_cons, List.mem_append, List.mem_cons] at hnew
      refine ⟨?_, hn.2⟩
      rw [List.mem_append]
      exact fun hx => hnew (hx.imp_right .inr)
    · exact hn

theorem nodup_seeds (s : CaloSettings α) (hits : List (BlockHit α)) :
    ((seeds s hits).map Prod.snd).Nodup :=
  seeds_induction (motive := fun placed => (placed.map Prod.snd).Nodup) .nil
    fun _ _ hturn h => hturn.nodup_placeSeed h

theorem AtTurn.nodup (h : AtTurn s hits x placed) : (placed.map Prod.snd).Nodup := by
  obtain ⟨before, later, hsplit, rfl⟩ := h
  exact placed_induction (motive := fun placed => (placed.map Prod.snd).Nodup) .nil
    (fun _ _ hturn h => hturn.nodup_placeSeed h) ⟨x :: later, hsplit.symm⟩

end Turns

/-- At its turn the maximum `a` lies in the window of the weaker seed `c`, and in none of those in
front. It puts itself in the place of `c`, which is no seed any more. -/
structure TookOver (s : CaloSettings α) (hits : List (BlockHit α)) (front : List (Numbered α))
    (c : Numbered α) (back : List (Numbered α)) (a : Numbered α) : Prop where
  turn : AtTurn s hits a (front ++ c :: back)
  first : ∀ w ∈ front, inWindow s.squareSize w.1 a.1 = false
  inside : inWindow s.squareSize c.1 a.1 = true
  weaker : c.1.energy < a.1.energy
  replaces : placeSeed s.squareSize (front ++ c :: back) a = front ++ a :: back
  earlier : c ∈ maxima s hits ∧ c.2 < a.2
  gone : c ∉ seeds s hits

/-- How two seeds lie, of which the first stands at a position and the second behind it: they are
apart, unless the first came last and took over the window at its position while the second one
was a seed already. -/
def Settled (s : CaloSettings α) (hits : List (BlockHit α)) (i : Nat) (a b : Numbered α) : Prop :=
  Apart s.squareSize a.1 b.1 ∨
    (b.2 < a.2 ∧ ∃ front c back, TookOver s hits front c back a ∧ front.length = i ∧ b ∈ back)

def AllSettled (s : CaloSettings α) (hits : List (BlockHit α)) (placed : List (Numbered α)) :
    Prop :=
  ∀ i j, i < j → ∀ a ∈ placed[i]?, ∀ b ∈ placed[j]?, Settled s hits i a b

section Steps

variable {s : CaloSettings α} {hits : List (BlockHit α)} {a c x : Numbered α}
  {front back placed : List (Numbered α)}

/-- A seed that is replaced does not come back, as its turn is over. -/
theorem AtTurn.gone (h : AtTurn s hits a (front ++ c :: back))
    (hreplaces : placeSeed s.squareSize (front ++ c :: back) a = front ++ a :: back) :
    c ∉ seeds s hits := by
  have hearlier := (h.earlier c (by simp)).2
  have hn := h.nodup
  rw [List.map_append, List.map_cons, List.nodup_middle, List.nodup_cons, ← List.map_append] at hn
  obtain ⟨later, hseeds, hlater⟩ := h.exists_later
  rw [hseeds, hreplaces]
  intro hc
  rcases mem_foldl_placeSeed hc with hplaced | hcomes
  · rcases List.mem_append.mp hplaced with hfront | hrest
    · exact hn.1 (List.mem_map_of_mem (List.mem_append_left back hfront))
    · rcases List.mem_cons.mp hrest with rfl | hback
      · exact lt_irrefl _ hearlier
      · exact hn.1 (List.mem_map_of_mem (List.mem_append_right front hback))
  · exact lt_asymm hearlier (hlater c hcomes)

theorem AtTurn.tookOver (h : AtTurn s hits a (front ++ c :: back))
    (hfirst : ∀ w ∈ front, inWindow s.squareSize w.1 a.1 = false)
    (hinside : inWindow s.squareSize c.1 a.1 = true) (hweaker : c.1.energy < a.1.energy) :
    TookOver s hits front c back a := by
  have hreplaces : placeSeed s.squareSize (front ++ c :: back) a = front ++ a :: back := by
    rw [placeSeed_of_inside hfirst hinside, if_pos hweaker]
  exact ⟨h, hfirst, hinside, hweaker, hreplaces, h.earlier c (by simp), h.gone hreplaces⟩

variable [Scalar.Mirrored α]

theorem AllSettled.opened (h : AllSettled s hits placed)
    (hout : ∀ w ∈ placed, inWindow s.squareSize w.1 x.1 = false) :
    AllSettled s hits (placed ++ [x]) := by
  intro i j hij a ha b hb
  have hj : j < placed.length + 1 := by
    simpa using (List.getElem?_eq_some_iff.mp hb).1
  have hi : i < placed.length := by omega
  rw [List.getElem?_append_left hi] at ha
  rcases Nat.lt_succ_iff_lt_or_eq.mp hj with hlt | rfl
  · rw [List.getElem?_append_left hlt] at hb
    exact h i j hij a ha b hb
  · rw [List.getElem?_concat_length] at hb
    obtain rfl := Option.some.inj hb
    have hax := hout a (List.mem_of_getElem? ha)
    exact .inl ⟨hax, inWindow_comm s.squareSize a.1 x.1 ▸ hax⟩

theorem AllSettled.tookOver (h : AllSettled s hits (front ++ c :: back))
    (htook : TookOver s hits front c back x) : AllSettled s hits (front ++ x :: back) := by
  intro i j hij a ha b hb
  rcases Nat.lt_trichotomy j front.length with hj | rfl | hj
  · rw [getElem?_replaced (by omega) x c] at ha hb
    exact h i j hij a ha b hb
  · -- the seeds in front of the window did not hold the maximum
    rw [List.getElem?_append_left hij] at ha
    rw [List.getElem?_append_right le_rfl, Nat.sub_self] at hb
    obtain rfl := Option.some.inj hb
    have hax := htook.first a (List.mem_of_getElem? ha)
    exact .inl ⟨hax, inWindow_comm s.squareSize a.1 x.1 ▸ hax⟩
  · rw [getElem?_replaced (by omega) x c] at hb
    by_cases hi : i = front.length
    · subst hi
      rw [List.getElem?_append_right le_rfl, Nat.sub_self] at ha
      obtain rfl := Option.some.inj ha
      have hback : b ∈ back := by
        rw [List.getElem?_append_right hj.le, List.getElem?_cons] at hb
        rw [if_neg (by omega)] at hb
        exact List.mem_of_getElem? hb
      exact .inr ⟨(htook.turn.earlier b (by simp [hback])).2, front, c, back, htook, rfl, hback⟩
    · rw [getElem?_replaced hi x c] at ha
      exact h i j hij a ha b hb

/-- Every turn leaves the seeds settled: opening a window a maximum lies in none, and taking one
over it comes after the seeds that stand behind. -/
theorem AllSettled.placeSeed (h : AllSettled s hits placed) (hturn : AtTurn s hits x placed) :
    AllSettled s hits (placeSeed s.squareSize placed x) := by
  rcases placeSeed_cases s.squareSize placed x with
    ⟨hout, hopens⟩ | ⟨front, c, back, rfl, hfirst, hinside, hput⟩
  · rw [hopens]
    exact h.opened hout
  · rw [hput]
    by_cases hweaker : c.1.energy < x.1.energy
    · rw [if_pos hweaker]
      exact h.tookOver (hturn.tookOver hfirst hinside hweaker)
    · rw [if_neg hweaker]
      exact h

theorem seeds_settled (s : CaloSettings α) (hits : List (BlockHit α)) :
    AllSettled s hits (seeds s hits) :=
  seeds_induction (fun _ _ _ _ ha => absurd ha (by simp)) fun _ _ hturn h => h.placeSeed hturn

end Steps

theorem head?_window (owned : List (BlockHit α × Option Nat)) (seed : Numbered α) (pos : Nat) :
    (window owned seed pos).hits.head? = some seed.1 := by
  rw [window, BlockCluster.hits_addAll]
  rfl

/-- The clusters begin with the seeds, in their order. -/
theorem map_head?_clusters (s : CaloSettings α) (hits : List (BlockHit α)) :
    (clusters s hits).map (·.hits.head?) =
      (seeds s (Primex.live s hits)).map fun seed => some seed.1 := by
  conv_rhs => rw [← List.zipIdx_map_fst 0 (seeds s (Primex.live s hits)), List.map_map]
  rw [clusters, List.map_map]
  simp only [Function.comp_def, head?_window]
  rfl

/-- The clusters begin with the seeds. Two of them lie outside each other's windows, unless the one
whose cluster stands first came last. Then it took the window of this cluster over from a weaker
maximum, which is no seed any more, and the other one was a seed before. -/
theorem cluster_seeds_settled [Scalar.Mirrored α] (s : CaloSettings α) (hits : List (BlockHit α)) :
    (clusters s hits).map (·.hits.head?) =
      (seeds s (Primex.live s hits)).map (fun seed => some seed.1) ∧
    (∀ seed ∈ seeds s (Primex.live s hits), seed ∈ maxima s (Primex.live s hits)) ∧
    ∀ i j, i < j → ∀ a ∈ (seeds s (Primex.live s hits))[i]?,
      ∀ b ∈ (seeds s (Primex.live s hits))[j]?, Settled s (Primex.live s hits) i a b :=
  ⟨map_head?_clusters s hits, fun _ => mem_maxima_of_mem_seeds, seeds_settled s _⟩

/-- Two maxima with windows of their own, and a stronger one between them that comes last. -/
def between : List (BlockHit Float32) :=
  [(Sectors.crystal 0 17).hit 100, (Sectors.crystal 0 21).hit 100, (Sectors.crystal 0 19).hit 300]

theorem between_seeds_settled :
    (seeds .standard (Primex.live .standard between)).map (·.2) = [2, 1] ∧
      ∀ i j, i < j → ∀ a ∈ (seeds .standard (Primex.live .standard between))[i]?,
        ∀ b ∈ (seeds .standard (Primex.live .standard between))[j]?,
          Settled .standard (Primex.live .standard between) i a b :=
  ⟨by decide +kernel, (cluster_seeds_settled .standard between).2.2⟩

/-- The stronger maximum takes over the first window, where the second seed lies in it. -/
theorem taken_window_holds_seed :
    (∀ hit ∈ between, Scalar.isNumber hit.energy = true ∧ hit.place.isNumber = true) ∧
      ¬ (clusters .standard between).Pairwise fun c d => ∀ a ∈ c.hits.head?, ∀ b ∈ d.hits.head?,
        inWindow (CaloSettings.standard (α := Float32)).squareSize a b = false := by
  decide +kernel

end Square

end ShowerTrack
