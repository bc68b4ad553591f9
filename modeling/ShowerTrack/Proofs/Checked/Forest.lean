import ShowerTrack.Proofs.Checked.Reading
import ShowerTrack.Proofs.Connected

/-!
# Checked disjoint sets

Parents, slots and groups stay in range: a parent is an index of the forest, a slot the number of
a group, and the members of a group are positions of the items.
-/

set_option autoImplicit false

namespace ShowerTrack.Checked

/-- Follows the parents to the root. A walk that does not come nearer to it has no result. -/
def rootFrom (p : Partition) (i : Nat) : Option Nat := do
  let next ← p.parent[i]?
  if next = i then some i else if next < i then rootFrom p next else none
termination_by i

def compress (p : Partition) (i r : Nat) : Option Partition := do
  let next ← p.parent[i]?
  if next = r then some p
  else if next < i then
    let parent ← put p.parent i r
    compress ⟨parent⟩ next r
  else none
termination_by i

def find (p : Partition) (i : Nat) : Option (Nat × Partition) := do
  let r ← rootFrom p i
  let q ← compress p i r
  some (r, q)

def union (p : Partition) (a b : Nat) : Option Partition := do
  let (ra, p) ← find p a
  let (rb, p) ← find p b
  if ra = rb then some p
  else if ra < rb then (put p.parent rb ra).map Partition.mk
  else (put p.parent ra rb).map Partition.mk

section Pointers

variable {p : Partition} {i : Nat}

theorem getElem?_parent (h : i < p.size) : p.parent[i]? = some (p.next i) := by
  have h' : i < p.parent.size := h
  simp [Partition.next, h']

theorem redirect_next (h : i < p.size) : p.redirect i (p.next i) = p := by
  have h' : i < p.parent.size := h
  rw [Partition.redirect, Partition.mk.injEq]
  apply Array.ext_getElem?
  intro j
  by_cases hj : i = j
  · subst hj
    rw [getElem?_parent h]
    simp [h']
  · simp [hj]

theorem rootFrom_eq (hp : p.Descends) (h : i < p.size) : rootFrom p i = some (p.root i) := by
  induction i using Nat.strongRecOn with
  | ind i ih =>
    have hle := hp i
    rw [rootFrom, getElem?_parent h]
    by_cases hroot : p.next i = i
    · simp [hroot, Partition.root_stop (show ¬ p.next i < i by omega)]
    · have hlt : p.next i < i := by omega
      simp [hroot, hlt, ih _ hlt (by omega), Partition.root_step hlt]

theorem compress_eq (hp : p.Descends) (h : i < p.size) :
    compress p i (p.root i) = some (p.compress i (p.root i)) := by
  generalize hr : p.root i = r
  induction i using Nat.strongRecOn generalizing p with
  | ind i ih =>
    have hle := hp i
    have hsize : i < p.parent.size := h
    rw [compress, getElem?_parent h]
    simp only [Option.bind_eq_bind, Option.bind_some]
    by_cases hlast : p.next i = r
    · rw [if_pos hlast]
      by_cases hlt : p.next i < i
      · have hsame : p.redirect i r = p := hlast ▸ redirect_next h
        have hstop : ¬ p.next r < r := by
          have hroot := Partition.root_root p i
          rw [hr] at hroot
          intro hbelow
          have := p.root_le (p.next r)
          rw [Partition.root_step hbelow] at hroot
          omega
        rw [Partition.compress, if_pos hlt, ← Partition.redirect, hsame, hlast,
          Partition.compress, if_neg hstop]
      · rw [Partition.compress, if_neg hlt]
    · have hlt : p.next i < i := by
        by_contra hstop
        exact hlast (by rw [← hr, Partition.root_stop hstop]; omega)
      have hbound : r ≤ i := hr ▸ p.root_le i
      have hroot : (p.redirect i r).root (p.next i) = r := by
        have hi : p.root i = r ∨ p.root i = i := .inl hr
        rw [Partition.root_redirect h hbound (hr ▸ p.root_root i) hi, Partition.root_next hp, hr,
          if_pos rfl]
      have hrest := ih (p.next i) hlt (Partition.descends_redirect hp h hbound)
        (by rw [Partition.size_redirect]; omega) hroot
      rw [if_neg hlast, if_pos hlt, put_eq hsize, Option.bind_some, Partition.compress, if_pos hlt]
      exact hrest

theorem find_eq (hp : p.Descends) (h : i < p.size) : find p i = some (p.find i) := by
  simp only [find, rootFrom_eq hp h, compress_eq hp h, Option.bind_eq_bind, Option.bind_some]
  rfl

theorem union_eq (hp : p.Descends) {a b : Nat} (ha : a < p.size) (hb : b < p.size) :
    union p a b = some (p.union a b) := by
  obtain ⟨hd, hs, hr⟩ := Partition.find_sameRoots hp a
  obtain ⟨hd', hs', hr'⟩ := Partition.find_sameRoots hd b
  have hsize : ((p.find a).2.find b).2.parent.size = p.size := hs'.trans hs
  have hra : (p.find a).1 < p.size := (p.root_le a).trans_lt ha
  have hrb : ((p.find a).2.find b).1 < p.size := by
    rw [Partition.find_fst, hr]
    exact (p.root_le b).trans_lt hb
  simp only [union, find_eq hp ha, Option.bind_eq_bind, Option.bind_some,
    find_eq hd (hs ▸ hb), Partition.union]
  split
  · rfl
  · split
    · rw [put_eq (hsize ▸ hrb)]
      rfl
    · rw [put_eq (hsize ▸ hra)]
      rfl

theorem find_eq_none (h : ¬ i < p.size) : find p i = none := by
  have hout : p.parent[i]? = none := Array.getElem?_eq_none (Nat.le_of_not_lt h)
  rw [find, rootFrom, hout]
  rfl

/-- The loops of a find leave the forest just where it is guarded. -/
theorem find_eq_find? (hp : p.Descends) (i : Nat) : find p i = p.find? i := by
  by_cases h : i < p.size
  · rw [find_eq hp h, Partition.find?, if_pos h]
  · rw [find_eq_none h, Partition.find?, if_neg h]

theorem union_eq_union? (hp : p.Descends) (a b : Nat) : union p a b = p.union? a b := by
  by_cases h : a < p.size ∧ b < p.size
  · rw [union_eq hp h.1 h.2, Partition.union?, if_pos h]
  · rw [Partition.union?, if_neg h]
    by_cases ha : a < p.size
    · have hb : ¬ b < (p.find a).2.size := by
        rw [(Partition.find_sameRoots hp a).size]
        exact fun hb => h ⟨ha, hb⟩
      simp [union, find_eq hp ha, find_eq_none hb]
    · rw [union, find_eq_none ha]
      rfl

end Pointers

/-- A forest whose classes are gathered: a root has the number of its group in its slot. -/
structure Gathering where
  forest : Partition
  slot : Array (Option Nat)
  groups : Array (List Nat)

def Gathering.openGroup (g : Gathering) (r : Nat) : Option Gathering := do
  match ← g.slot[r]? with
  | some _ => some g
  | none =>
    let slot ← put g.slot r (some g.groups.size)
    some { g with slot, groups := g.groups.push [] }

def Gathering.add (g : Gathering) (i : Nat) : Option Gathering := do
  let (r, forest) ← find g.forest i
  let g ← Gathering.openGroup { g with forest } r
  let k ← ← g.slot[r]?
  let groups ← edit g.groups k fun members => some (members ++ [i])
  some { g with groups }

def groups (p : Partition) : Option (List (List Nat)) := do
  let g ← (List.range p.size).foldlM Gathering.add ⟨p, .replicate p.size none, #[]⟩
  some g.groups.toList

section Gathered

variable {p : Partition}

def roots (p : Partition) (m : Nat) : List Nat := (List.range m).filter fun r => p.root r == r

def met (p : Partition) (m r : Nat) : List Nat := (List.range m).filter fun i => p.root i == r

def numberOf (p : Partition) (m r : Nat) : Option Nat :=
  if r ∈ roots p m then some ((roots p m).idxOf r) else none

structure Gathered (p : Partition) (m : Nat) (g : Gathering) : Prop where
  forest : Partition.SameRoots p g.forest
  size : g.slot.size = p.size
  slot : ∀ r < p.size, g.slot[r]? = some (numberOf p m r)
  groups : g.groups.toList = (roots p m).map (met p m)

theorem mem_roots {m r : Nat} : r ∈ roots p m ↔ r < m ∧ p.root r = r := by
  simp [roots]

theorem roots_succ (p : Partition) (m : Nat) :
    roots p (m + 1) = roots p m ++ if p.root m = m then [m] else [] := by
  simp [roots, List.range_succ, List.filter_append, List.filter_cons]

theorem met_succ (p : Partition) (m r : Nat) :
    met p (m + 1) r = met p m r ++ if p.root m = r then [m] else [] := by
  simp [met, List.range_succ, List.filter_append, List.filter_cons]

theorem map_met_of_ne {m : Nat} {rs : List Nat} (h : p.root m ∉ rs) :
    rs.map (met p (m + 1)) = rs.map (met p m) := by
  apply List.map_congr_left
  intro r hr
  have hne : p.root m ≠ r := fun heq => h (heq ▸ hr)
  rw [met_succ, if_neg hne, List.append_nil]

theorem met_root {m : Nat} (h : p.root m = m) : met p (m + 1) m = [m] := by
  have hnone : met p m m = [] := by
    rw [met, List.filter_eq_nil_iff]
    intro i hi
    have hle := p.root_le i
    have hlt := List.mem_range.mp hi
    simp only [beq_iff_eq]
    omega
  rw [met_succ, hnone, if_pos h, List.nil_append]

theorem numberOf_root {m r : Nat} (h : p.root m = m) :
    numberOf p (m + 1) r = if m = r then some (roots p m).length else numberOf p m r := by
  have hm : m ∉ roots p m := fun hmem => (mem_roots.mp hmem).1.ne rfl
  rw [numberOf, numberOf, roots_succ, if_pos h]
  by_cases hr : m = r
  · subst hr
    simp [List.idxOf_append_of_notMem hm]
  · by_cases hmem : r ∈ roots p m
    · simp [hmem, hr, List.idxOf_append_of_mem hmem]
    · simp [hmem, hr, Ne.symm hr]

/-- A new root opens a group of its own. -/
theorem gathered_root {m : Nat} {g : Gathering} (h : Gathered p m g) (hm : m < p.size)
    (hroot : p.root m = m) : ∃ g', g.add m = some g' ∧ Gathered p (m + 1) g' := by
  have hfind := find_eq h.forest.descends (h.forest.size.symm ▸ hm)
  have hforest := Partition.find_sameRoots h.forest.descends m
  have hfirst : (g.forest.find m).1 = m := by rw [Partition.find_fst, h.forest.root, hroot]
  have hunmet : m ∉ roots p m := fun hmem => (mem_roots.mp hmem).1.ne rfl
  have hslot : g.slot[m]? = some none := by rw [h.slot m hm, numberOf, if_neg hunmet]
  have hput := put_eq (h.size.symm ▸ hm : m < g.slot.size) (some g.groups.size)
  have hnumber : (g.slot.setIfInBounds m (some g.groups.size))[m]? = some (some g.groups.size) := by
    simp [h.size, hm]
  have hedit : edit (g.groups.push []) g.groups.size (fun members => some (members ++ [m])) =
      some (g.groups.toList ++ [[m]]).toArray := by
    have hpush : g.groups.push [] = (g.groups.toList ++ [[]]).toArray :=
      Array.toList_inj.mp (by simp)
    rw [hpush, ← Array.length_toList]
    exact edit_middle g.groups.toList [] [] fun members => some (members ++ [m])
  refine ⟨⟨(g.forest.find m).2, g.slot.setIfInBounds m (some g.groups.size),
    (g.groups.toList ++ [[m]]).toArray⟩, ?_, ?_⟩
  · simp only [Gathering.add, hfind, Option.bind_eq_bind, Option.bind_some, hfirst,
      Gathering.openGroup, hslot, hput, hnumber, hedit]
  · refine ⟨⟨hforest.descends, hforest.size.trans h.forest.size, fun i =>
      (hforest.root i).trans (h.forest.root i)⟩, by simp [h.size], ?_, ?_⟩
    · intro r hr
      have hlength : g.groups.size = (roots p m).length := by
        rw [← Array.length_toList, h.groups, List.length_map]
      rw [numberOf_root hroot, Array.getElem?_setIfInBounds, h.slot r hr, hlength]
      split
      · simp [h.size, hm]
      · rfl
    · rw [roots_succ, if_pos hroot, List.map_append, map_met_of_ne (hroot.symm ▸ hunmet),
        List.map_singleton, met_root hroot, h.groups]

/-- An index below its root joins the group that the root has opened. -/
theorem gathered_member {m : Nat} {g : Gathering} (h : Gathered p m g) (hm : m < p.size)
    (hroot : p.root m ≠ m) : ∃ g', g.add m = some g' ∧ Gathered p (m + 1) g' := by
  have hfind := find_eq h.forest.descends (h.forest.size.symm ▸ hm)
  have hforest := Partition.find_sameRoots h.forest.descends m
  have hfirst : (g.forest.find m).1 = p.root m := by rw [Partition.find_fst, h.forest.root]
  have hlt : p.root m < m := lt_of_le_of_ne (p.root_le m) hroot
  have hmet : p.root m ∈ roots p m := mem_roots.mpr ⟨hlt, p.root_root m⟩
  obtain ⟨pre, post, hsplit⟩ := List.append_of_mem hmet
  have hnodup : (pre ++ p.root m :: post).Nodup := hsplit ▸ List.nodup_range.filter _
  have hpre : p.root m ∉ pre := fun hmem =>
    List.disjoint_of_nodup_append hnodup hmem List.mem_cons_self
  have hpost : p.root m ∉ post := (List.nodup_cons.mp hnodup.of_append_right).1
  have hnumber : g.slot[p.root m]? = some (some pre.length) := by
    rw [h.slot _ (hlt.trans hm), numberOf, if_pos hmet, hsplit,
      List.idxOf_append_of_notMem hpre, List.idxOf_cons_self, Nat.add_zero]
  have hedit : edit g.groups pre.length (fun members => some (members ++ [m])) =
      some (pre.map (met p m) ++ (met p m (p.root m) ++ [m]) :: post.map (met p m)).toArray := by
    have hmiddle := edit_middle (pre.map (met p m)) (post.map (met p m)) (met p m (p.root m))
      fun members => some (members ++ [m])
    have hgroups : g.groups = (pre.map (met p m) ++ met p m (p.root m) ::
        post.map (met p m)).toArray := by
      rw [← List.map_cons, ← List.map_append, ← hsplit, ← h.groups]
    rw [List.length_map] at hmiddle
    rw [hgroups]
    exact hmiddle
  refine ⟨⟨(g.forest.find m).2, g.slot,
    (pre.map (met p m) ++ (met p m (p.root m) ++ [m]) :: post.map (met p m)).toArray⟩, ?_, ?_⟩
  · simp only [Gathering.add, hfind, Option.bind_eq_bind, Option.bind_some, hfirst,
      Gathering.openGroup, hnumber, hedit]
  · have hroots : roots p (m + 1) = roots p m := by
      rw [roots_succ, if_neg hroot, List.append_nil]
    refine ⟨⟨hforest.descends, hforest.size.trans h.forest.size, fun i =>
      (hforest.root i).trans (h.forest.root i)⟩, h.size, ?_, ?_⟩
    · intro r hr
      rw [h.slot r hr, numberOf, numberOf, hroots]
    · rw [hroots, hsplit, List.map_append, List.map_cons, map_met_of_ne hpre,
        map_met_of_ne hpost, met_succ, if_pos rfl]

theorem groups_eq (hp : p.Descends) : groups p = some p.groups := by
  have hstart : Gathered p 0 ⟨p, .replicate p.size none, #[]⟩ :=
    ⟨⟨hp, rfl, fun _ => rfl⟩, by simp, by intro r hr; simp [hr, numberOf, roots], by simp [roots]⟩
  have hrun : ∀ m ≤ p.size, ∃ g, (List.range m).foldlM Gathering.add
      ⟨p, .replicate p.size none, #[]⟩ = some g ∧ Gathered p m g := by
    intro m
    induction m with
    | zero => exact fun _ => ⟨_, rfl, hstart⟩
    | succ m ih =>
      intro hm
      obtain ⟨g, hg, hgathered⟩ := ih (Nat.le_of_succ_le hm)
      have hstep : ∃ g', g.add m = some g' ∧ Gathered p (m + 1) g' := by
        by_cases hroot : p.root m = m
        · exact gathered_root hgathered hm hroot
        · exact gathered_member hgathered hm hroot
      obtain ⟨g', hg', hgathered'⟩ := hstep
      refine ⟨g', ?_, hgathered'⟩
      rw [List.range_succ, List.foldlM_append, hg]
      simpa using hg'
  obtain ⟨g, hg, hgathered⟩ := hrun p.size le_rfl
  have hmodel : p.groups = (roots p p.size).map (met p p.size) := by
    have hinhabited : ∀ r ∈ List.range p.size, (!(p.members r).isEmpty) = (p.root r == r) := by
      intro r hr
      rw [Bool.eq_iff_iff, Bool.not_eq_true', List.isEmpty_eq_false_iff_exists_mem, beq_iff_eq]
      constructor
      · rintro ⟨i, hi⟩
        rw [← (Partition.mem_members.mp hi).2, p.root_root]
      · intro hroot
        exact ⟨r, Partition.mem_members.mpr ⟨List.mem_range.mp hr, hroot⟩⟩
    rw [Partition.groups_eq, List.filter_map]
    change _ = (((List.range p.size).filter fun r => p.root r == r)).map p.members
    congr 1
    exact List.filter_congr hinhabited
  rw [groups, hg, hmodel, ← hgathered.groups]
  rfl

end Gathered

section Connected

variable {β : Type} (inReach related : β → β → Bool)

def joinRow (items : List β) (i : Nat) : List Nat → Partition → Option Partition
  | [], p => some p
  | j :: js, p => do
    let a ← items[i]?
    let b ← items[j]?
    if inReach a b then
      let p ← if related a b then union p i j else some p
      joinRow items i js p
    else some p

def connectedWithin (items : List β) : Option (List (List β)) := do
  let n := items.length
  let p ← (List.range' 0 n).foldlM
    (fun p i => joinRow inReach related items i (List.range' (i + 1) (n - (i + 1))) p) (.discrete n)
  (← groups p).mapM fun members => members.mapM (items[·]?)

structure Over (n : Nat) (p : Partition) : Prop where
  descends : p.Descends
  size : p.size = n

theorem Over.union {n : Nat} {p : Partition} (h : Over n p) {a b : Nat} (ha : a < n) (hb : b < n) :
    Over n (p.union a b) := by
  have hunites := Partition.union_unites h.descends (h.size.symm ▸ ha) (h.size.symm ▸ hb)
  exact ⟨hunites.descends, hunites.size.trans h.size⟩

variable {items : List β}

theorem joinRow_eq {a : β} {i : Nat} (ha : items[i]? = some a) {rest : List (β × Nat)}
    (hrest : ∀ x ∈ rest, items[x.2]? = some x.1) {p : Partition} (hp : Over items.length p) :
    joinRow inReach related items i (rest.map Prod.snd) p = some (p.unionAll
      (((rest.takeWhile fun x => inReach a x.1).filter fun x => related a x.1).map
        fun x => (i, x.2))) ∧
    Over items.length (p.unionAll
      (((rest.takeWhile fun x => inReach a x.1).filter fun x => related a x.1).map
        fun x => (i, x.2))) := by
  induction rest generalizing p with
  | nil => exact ⟨rfl, hp⟩
  | cons x rest ih =>
    obtain ⟨b, j⟩ := x
    have hb : items[j]? = some b := hrest (b, j) List.mem_cons_self
    have hlater : ∀ y ∈ rest, items[y.2]? = some y.1 := fun y hy =>
      hrest y (List.mem_cons_of_mem _ hy)
    have hi := (List.getElem?_eq_some_iff.mp ha).1
    have hj := (List.getElem?_eq_some_iff.mp hb).1
    by_cases hreach : inReach a b = true
    · by_cases hrelated : related a b = true
      · have hunion := union_eq hp.descends (hp.size.symm ▸ hi) (hp.size.symm ▸ hj)
        have hnext := ih hlater (hp.union hi hj)
        simpa [joinRow, ha, hb, hreach, hrelated, hunion, Partition.unionAll] using hnext
      · have hnext := ih hlater hp
        simpa [joinRow, ha, hb, hreach, hrelated] using hnext
    · simpa [joinRow, ha, hb, hreach, Partition.unionAll] using hp

theorem foldlM_joinRow {pre l : List β} (hitems : items = pre ++ l) {p : Partition}
    (hp : Over items.length p) :
    (List.range' pre.length l.length).foldlM (fun p i => joinRow inReach related items i
        (List.range' (i + 1) (items.length - (i + 1))) p) p =
      some (p.unionAll (relatedPairs inReach related (l.zipIdx pre.length))) ∧
    Over items.length (p.unionAll (relatedPairs inReach related (l.zipIdx pre.length))) := by
  induction l generalizing pre p with
  | nil => exact ⟨rfl, hp⟩
  | cons a l ih =>
    have ha : items[pre.length]? = some a := by simp [hitems]
    have hrest : ∀ x ∈ l.zipIdx (pre.length + 1), items[x.2]? = some x.1 := by
      rintro ⟨b, j⟩ hx
      obtain ⟨hle, hb⟩ := List.mk_mem_zipIdx_iff_le_and_getElem?_sub.mp hx
      have hlater : items = (pre ++ [a]) ++ l := by simp [hitems]
      rw [hlater, List.getElem?_append_right (by simpa using hle), List.length_append]
      exact hb
    have hpositions : List.range' (pre.length + 1) (items.length - (pre.length + 1)) =
        (l.zipIdx (pre.length + 1)).map Prod.snd := by
      rw [List.zipIdx_map_snd, hitems]
      congr 1
      rw [List.length_append, List.length_cons]
      omega
    obtain ⟨hrow, hover⟩ := joinRow_eq inReach related ha hrest hp
    have hlater := ih (show items = (pre ++ [a]) ++ l by simp [hitems]) hover
    rw [List.length_append] at hlater
    rw [List.length_cons, List.range'_succ, List.foldlM_cons, hpositions, hrow, List.zipIdx_cons,
      relatedPairs, Partition.unionAll_append]
    exact hlater

theorem connectedWithin_eq (inReach related : β → β → Bool) (items : List β) :
    connectedWithin inReach related items =
      some (ShowerTrack.connectedWithin inReach related items) := by
  have hstart : Over items.length (Partition.discrete items.length) :=
    ⟨Partition.descends_discrete _, Array.size_range⟩
  obtain ⟨hjoined, hover⟩ := foldlM_joinRow inReach related
    (List.nil_append items).symm hstart
  rw [List.length_nil] at hjoined hover
  have hmembers : ∀ members ∈ ((Partition.discrete items.length).unionAll
      (relatedPairs inReach related items.zipIdx)).groups,
      members.mapM (items[·]?) = some (members.filterMap (items[·]?)) := by
    intro members hmem
    obtain ⟨_, r, rfl⟩ := Partition.mem_groups hmem
    apply mapM_filterMap
    intro i hi
    have hbound := (Partition.mem_members.mp hi).1
    rw [hover.size] at hbound
    simpa using hbound
  simp only [connectedWithin, hjoined, Option.bind_eq_bind, Option.bind_some,
    groups_eq hover.descends]
  exact mapM_eq hmembers

end Connected

end ShowerTrack.Checked
