import Mathlib.Data.List.Basic

/-!
# Checked reading and writing

The reconstruction again, with every position looked up and every difference taken under a check
that can fail. What follows defines the checks and the loops over them; a loop gives a result if
every turn of it does.
-/

set_option autoImplicit false

namespace ShowerTrack.Checked

variable {β γ σ τ : Type}

def edit (xs : Array β) (i : Nat) (f : β → Option β) : Option (Array β) :=
  match xs[i]? with
  | none => none
  | some x => (f x).map (xs.setIfInBounds i)

def put (xs : Array β) (i : Nat) (x : β) : Option (Array β) := edit xs i fun _ => some x

/-- A difference of sizes, which has no room for a negative one. -/
def sub (a b : Nat) : Option Nat := if b ≤ a then some (a - b) else none

/-- A product of sizes in a word. -/
def mul (a b : Nat) : Option Nat := if a * b < UInt64.size then some (a * b) else none

/-- A difference of integers of half a word. -/
def difference (a b : Int) : Option Int :=
  if Int32.minValue.toInt ≤ a - b ∧ a - b ≤ Int32.maxValue.toInt then some (a - b) else none

def keep (test : β → Option Bool) (xs : List β) : Option (List β) := do
  let tested ← xs.mapM fun x => (test x).map fun passed => (x, passed)
  some ((tested.filter (·.2)).map (·.1))

theorem sub_eq {a b : Nat} (h : b ≤ a) : sub a b = some (a - b) := if_pos h

theorem mul_eq {a b : Nat} (h : a * b < UInt64.size) : mul a b = some (a * b) := if_pos h

theorem difference_eq {a b : Int} (ha : 0 ≤ a ∧ a ≤ Int32.maxValue.toInt)
    (hb : 0 ≤ b ∧ b ≤ Int32.maxValue.toInt) : difference a b = some (a - b) := by
  have hmin : Int32.minValue.toInt = -Int32.maxValue.toInt - 1 := by decide
  apply if_pos
  constructor
  · omega
  · omega

/-- Where an entry of a table stands when its rows stand behind one another. -/
theorem flat_lt {rows columns r c : Nat} (hr : r < rows) (hc : c < columns) :
    r * columns + c < rows * columns :=
  calc
    r * columns + c < r * columns + columns := Nat.add_lt_add_left hc _
    _ = (r + 1) * columns := (Nat.succ_mul r columns).symm
    _ ≤ rows * columns := Nat.mul_le_mul_right _ hr

theorem edit_eq {xs : Array β} {i : Nat} {x y : β} {f : β → Option β} (hx : xs[i]? = some x)
    (hf : f x = some y) : edit xs i f = some (xs.setIfInBounds i y) := by
  rw [edit, hx]
  simp [hf]

theorem put_eq {xs : Array β} {i : Nat} (h : i < xs.size) (x : β) :
    put xs i x = some (xs.setIfInBounds i x) :=
  edit_eq (Array.getElem?_eq_getElem h) rfl

theorem edit_middle (pre post : List β) (x : β) (f : β → Option β) :
    edit (pre ++ x :: post).toArray pre.length f =
      (f x).map fun y => (pre ++ y :: post).toArray := by
  have hx : (pre ++ x :: post).toArray[pre.length]? = some x := by simp
  rw [edit, hx]
  apply Option.map_congr
  intro y _
  simp

theorem edit_field {l : List β} {i : Nat} {b : β} (hb : l[i]? = some b) {f : β → β} {g : β → γ}
    {e : γ → Option γ} (he : e (g b) = some (g (f b))) :
    edit (l.map g).toArray i e = some ((l.modify i f).map g).toArray := by
  have hread : (l.map g).toArray[i]? = some (g b) := by simp [hb]
  rw [edit_eq hread he]
  congr 1
  apply Array.ext_getElem?
  intro k
  by_cases hk : i = k
  · subst hk
    obtain ⟨hlt, rfl⟩ := List.getElem?_eq_some_iff.mp hb
    simp [hlt]
  · simp [hk]

theorem edit_range {n i : Nat} (h : i < n) (f : Nat → γ) {e : γ → Option γ} {y : γ}
    (he : e (f i) = some y) : edit ((List.range n).map f).toArray i e =
      some ((List.range n).map fun k => if i = k then y else f k).toArray := by
  have hread : ((List.range n).map f).toArray[i]? = some (f i) := by simp [h]
  rw [edit_eq hread he]
  congr 1
  apply Array.ext_getElem?
  intro k
  by_cases hk : i = k
  · subst hk
    simp [h]
  · by_cases hlt : k < n
    · simp [hk, hlt]
    · simp [hlt]

theorem mapM_eq {f : β → Option γ} {g : β → γ} {l : List β} (h : ∀ x ∈ l, f x = some (g x)) :
    l.mapM f = some (l.map g) := by
  induction l with
  | nil => rfl
  | cons x l ih =>
    have hx := h x List.mem_cons_self
    have hxs := ih fun y hy => h y (List.mem_cons_of_mem x hy)
    rw [List.mapM_cons, hx, hxs]
    rfl

theorem mapM_filterMap {f : β → Option γ} {l : List β} (h : ∀ x ∈ l, (f x).isSome) :
    l.mapM f = some (l.filterMap f) := by
  induction l with
  | nil => rfl
  | cons x l ih =>
    obtain ⟨y, hy⟩ := Option.isSome_iff_exists.mp (h x List.mem_cons_self)
    have hxs := ih fun z hz => h z (List.mem_cons_of_mem x hz)
    rw [List.mapM_cons, hy, hxs, List.filterMap_cons, hy]
    rfl

theorem keep_eq {test : β → Option Bool} {p : β → Bool} {l : List β}
    (h : ∀ x ∈ l, test x = some (p x)) : keep test l = some (l.filter p) := by
  have htested : l.mapM (fun x => (test x).map fun passed => (x, passed)) =
      some (l.map fun x => (x, p x)) := by
    apply mapM_eq
    intro x hx
    rw [h x hx]
    rfl
  rw [keep, htested]
  simp [List.filter_map, Function.comp_def]

/-- Every turn of a loop that has a result keeps it related to a loop without checks. -/
theorem foldlM_related {f : σ → β → Option σ} {g : τ → β → τ} {R : σ → τ → Prop} {l : List β}
    (hstep : ∀ s t, R s t → ∀ x ∈ l, ∃ s', f s x = some s' ∧ R s' (g t x)) {s : σ} {t : τ}
    (h : R s t) : ∃ s', l.foldlM f s = some s' ∧ R s' (l.foldl g t) := by
  induction l generalizing s t with
  | nil => exact ⟨s, rfl, h⟩
  | cons x l ih =>
    obtain ⟨s', hs', hR⟩ := hstep s t h x List.mem_cons_self
    obtain ⟨s'', hs'', hR'⟩ := ih (fun s t h y hy => hstep s t h y (List.mem_cons_of_mem x hy)) hR
    refine ⟨s'', ?_, hR'⟩
    rw [List.foldlM_cons, hs']
    exact hs''

/-- A loop that has a result in every turn under an invariant. -/
theorem foldlM_eq {f : σ → β → Option σ} {g : σ → β → σ} {P : σ → Prop} {l : List β}
    (hstep : ∀ s, P s → ∀ x ∈ l, f s x = some (g s x) ∧ P (g s x)) {s : σ} (h : P s) :
    l.foldlM f s = some (l.foldl g s) ∧ P (l.foldl g s) := by
  obtain ⟨s', hs', rfl, hP⟩ := foldlM_related (f := f) (g := g) (R := fun s t => s = t ∧ P s)
    (l := l) (fun s t ⟨hst, hP⟩ x hx => ⟨g s x, (hstep s hP x hx).1, by rw [hst],
      (hstep s hP x hx).2⟩) ⟨rfl, h⟩
  exact ⟨hs', hP⟩

theorem foldlM_replace {f : Array γ → β × Nat → Option (Array γ)} {g : β → Nat → γ → γ}
    {P : γ → Prop} {l : List β} (done todo : List γ) (hlength : todo.length = l.length)
    (hP : ∀ y ∈ todo, P y)
    (hstep : ∀ x pre y post, (x, pre.length) ∈ l.zipIdx done.length → P y →
      f (pre ++ y :: post).toArray (x, pre.length) =
        some (pre ++ g x pre.length y :: post).toArray) :
    (l.zipIdx done.length).foldlM f (done ++ todo).toArray =
      some (done ++ ((l.zip todo).zipIdx done.length).map fun x => g x.1.1 x.2 x.1.2).toArray := by
  induction l generalizing done todo with
  | nil =>
    obtain rfl := List.eq_nil_of_length_eq_zero hlength
    rfl
  | cons x l ih =>
    match todo, hlength with
    | y :: todo, hlength =>
      have hfirst := hstep x done y todo List.mem_cons_self (hP y List.mem_cons_self)
      have hrest := ih (done ++ [g x done.length y]) todo (Nat.succ.inj hlength)
        (fun z hz => hP z (List.mem_cons_of_mem y hz)) fun z pre w post hz hw =>
          hstep z pre w post (List.mem_cons_of_mem _ (by simpa using hz)) hw
      rw [List.length_append, List.append_assoc, List.append_assoc] at hrest
      rw [List.zipIdx_cons, List.foldlM_cons, hfirst]
      exact hrest

theorem foldlM_tabulate {f : Array γ → β × Nat → Option (Array γ)} {g : β × Nat → γ} {P : γ → Prop}
    {l : List β} {a : Array γ} (hsize : a.size = l.length) (hP : ∀ y ∈ a, P y)
    (hstep : ∀ x pre y post, (x, pre.length) ∈ l.zipIdx → P y →
      f (pre ++ y :: post).toArray (x, pre.length) =
        some (pre ++ g (x, pre.length) :: post).toArray) :
    l.zipIdx.foldlM f a = some (l.zipIdx.map g).toArray := by
  have hfill := foldlM_replace (g := fun x i _ => g (x, i)) [] a.toList (by simpa using hsize)
    (fun y hy => hP y (Array.mem_toList_iff.mp hy)) hstep
  have hfirst : ((l.zip a.toList).zipIdx.map fun x => g (x.1.1, x.2)) = l.zipIdx.map g := by
    have hzip : l = (l.zip a.toList).map Prod.fst := by rw [List.map_fst_zip (by simp [hsize])]
    conv_rhs => rw [hzip, List.zipIdx_map, List.map_map]
    rfl
  rw [List.length_nil, hfirst] at hfill
  exact hfill

theorem foldlM_fill {f : Array γ → β × Nat → Option (Array γ)} {g : β → γ} {P : γ → Prop}
    {l : List β} {a : Array γ} (hsize : a.size = l.length) (hP : ∀ y ∈ a, P y)
    (hstep : ∀ x ∈ l, ∀ pre y post, P y →
      f (pre ++ y :: post).toArray (x, pre.length) = some (pre ++ g x :: post).toArray) :
    l.zipIdx.foldlM f a = some (l.map g).toArray := by
  have hfill := foldlM_tabulate (g := g ∘ Prod.fst) hsize hP fun x pre y post hx hy =>
    hstep x (List.fst_mem_of_mem_zipIdx hx) pre y post hy
  rw [← List.map_map, List.zipIdx_map_fst] at hfill
  exact hfill

theorem foldlM_put {g : β → γ} {l : List β} {a : Array γ} (hsize : a.size = l.length) :
    l.zipIdx.foldlM (fun a x => put a x.2 (g x.1)) a = some (l.map g).toArray :=
  foldlM_fill hsize (P := fun _ => True) (fun _ _ => trivial) fun _ _ pre y post _ =>
    edit_middle pre post y _

theorem foldlM_edit_one {f : β → γ → Option γ} (l : List β) (pre post : List γ) (y : γ) :
    l.foldlM (fun a x => edit a pre.length (f x)) (pre ++ y :: post).toArray =
      (l.foldlM (fun y x => f x y) y).map fun z => (pre ++ z :: post).toArray := by
  induction l generalizing y with
  | nil => rfl
  | cons x l ih =>
    rw [List.foldlM_cons, List.foldlM_cons, edit_middle]
    cases hy : f x y with
    | none => rfl
    | some z => exact ih z

end ShowerTrack.Checked
