import Mathlib.Data.List.Nodup
import Mathlib.Data.List.Perm.Basic
import Mathlib.Data.Multiset.Basic
import Mathlib.Logic.Relation

/-!
# Components

A relation joins the items of a list along its paths, whichever way each link points. Its
components are lists that cut the items into the classes of joined ones. Components of blocks
of items, whose blocks are components themselves, are components of the items.
-/

set_option autoImplicit false

namespace ShowerTrack

variable {β γ : Type} {r s t : β → β → Prop} {items : List β} {groups : List (List β)}

def Linked (r : β → β → Prop) (items : List β) (a b : β) : Prop :=
  a ∈ items ∧ b ∈ items ∧ (r a b ∨ r b a)

def Joined (r : β → β → Prop) (items : List β) : β → β → Prop :=
  Relation.ReflTransGen (Linked r items)

/-- The lists are the classes of joined items. -/
structure IsComponents (r : β → β → Prop) (items : List β) (groups : List (List β)) : Prop where
  perm : groups.flatten.Perm items
  inhabited : [] ∉ groups
  classes : ∀ g ∈ groups, ∀ a ∈ g, ∀ b, b ∈ g ↔ Joined r items a b

theorem Linked.symm {a b : β} (h : Linked r items a b) : Linked r items b a :=
  ⟨h.2.1, h.1, h.2.2.symm⟩

theorem Linked.joined {a b : β} (h : Linked r items a b) : Joined r items a b :=
  Relation.ReflTransGen.single h

namespace Joined

theorem refl (a : β) : Joined r items a a := Relation.ReflTransGen.refl

theorem trans {a b c : β} (h : Joined r items a b) (k : Joined r items b c) :
    Joined r items a c :=
  Relation.ReflTransGen.trans h k

theorem symm {a b : β} (h : Joined r items a b) : Joined r items b a := by
  induction h with
  | refl => exact refl a
  | tail _ link ih => exact link.symm.joined.trans ih

theorem mono {others : List β} (hs : ∀ a b, Linked r items a b → Joined s others a b) {a b : β}
    (h : Joined r items a b) : Joined s others a b := by
  induction h with
  | refl => exact refl a
  | tail _ link ih => exact ih.trans (hs _ _ link)

/-- A set that no link leaves holds the end of every path that starts in it. -/
theorem mem_of_closed {p : β → Prop} (closed : ∀ a b, p a → Linked r items a b → p b) {a b : β}
    (ha : p a) (h : Joined r items a b) : p b := by
  induction h with
  | refl => exact ha
  | tail _ link ih => exact closed _ _ ih link

end Joined

/-- A chain of related items joins all of them. -/
theorem joined_of_isChain (h : items.IsChain r) :
    ∀ a ∈ items, ∀ b ∈ items, Joined r items a b := by
  induction items with
  | nil => simp
  | cons c items ih =>
    match items, h, ih with
    | [], _, _ =>
      intro a ha b hb
      rw [List.mem_singleton.mp ha, List.mem_singleton.mp hb]
      exact .refl c
    | d :: items, h, ih =>
      obtain ⟨hcd, hrest⟩ := List.isChain_cons_cons.mp h
      have hd : d ∈ c :: d :: items := List.mem_cons_of_mem c List.mem_cons_self
      have tail : ∀ a ∈ d :: items, Joined r (c :: d :: items) a d := by
        intro a ha
        apply (ih hrest a ha d List.mem_cons_self).mono
        intro x y link
        exact Linked.joined
          ⟨List.mem_cons_of_mem c link.1, List.mem_cons_of_mem c link.2.1, link.2.2⟩
      have all : ∀ a ∈ c :: d :: items, Joined r (c :: d :: items) a d := by
        rw [List.forall_mem_cons]
        exact ⟨Linked.joined ⟨List.mem_cons_self, hd, .inl hcd⟩, tail⟩
      intro a ha b hb
      exact (all a ha).trans (all b hb).symm

theorem pair_sublist_of_ne {a b : β} (ha : a ∈ items) (hb : b ∈ items) (hne : a ≠ b) :
    [a, b].Sublist items ∨ [b, a].Sublist items := by
  induction items with
  | nil => exact absurd ha List.not_mem_nil
  | cons c items ih =>
    rcases List.mem_cons.mp ha with rfl | ha'
    · have hb' : b ∈ items := (List.mem_cons.mp hb).resolve_left hne.symm
      exact .inl ((List.singleton_sublist.mpr hb').cons_cons a)
    · rcases List.mem_cons.mp hb with rfl | hb'
      · exact .inr ((List.singleton_sublist.mpr ha').cons_cons b)
      · exact (ih ha' hb').imp (.cons c) (.cons c)

/-- Sorting items by a key loses none and repeats none when every key is looked at once. -/
theorem flatMap_filter_perm {κ : Type} [DecidableEq κ] {keys : List κ} (hn : keys.Nodup)
    (key : β → κ) (hk : ∀ a ∈ items, key a ∈ keys) :
    (keys.flatMap fun k => items.filter (key · == k)).Perm items := by
  induction items with
  | nil => simp
  | cons a items ih =>
    obtain ⟨front, back, rfl⟩ := List.append_of_mem (hk a (by simp))
    have hfront : key a ∉ front := by
      intro h
      exact (List.nodup_append.mp hn).2.2 _ h _ (by simp) rfl
    have hback : key a ∉ back := (List.nodup_cons.mp (List.nodup_append.mp hn).2.1).1
    have skip : ∀ keys' : List κ, key a ∉ keys' →
        (keys'.flatMap fun k => (a :: items).filter (key · == k)) =
          keys'.flatMap fun k => items.filter (key · == k) := by
      intro keys' ha
      apply List.flatMap_congr
      intro k hk'
      have hne : key a ≠ k := fun h => ha (h ▸ hk')
      simp [hne]
    have ih := ih fun b hb => hk b (by simp [hb])
    simp only [List.flatMap_append, List.flatMap_cons, skip front hfront, skip back hback] at ih ⊢
    rw [List.filter_cons_of_pos (by simp), List.cons_append]
    exact List.perm_middle.trans (ih.cons a)

/-- Blocks that are put together in parts keep their items. -/
theorem flatten_flatMap_perm {blocks : List γ} {parts : List (List γ)}
    (h : parts.flatten.Perm blocks) (f : γ → List β) :
    (parts.map fun part => part.flatMap f).flatten.Perm (blocks.flatMap f) := by
  have hflat : (parts.map fun part => part.flatMap f).flatten = parts.flatten.flatMap f := by
    rw [List.flatMap_def, List.map_flatten, List.flatten_flatten, List.map_map]
    rfl
  rw [hflat]
  exact h.flatMap_right f

namespace IsComponents

theorem of_closed (perm : groups.flatten.Perm items) (inhabited : [] ∉ groups)
    (joined : ∀ g ∈ groups, ∀ a ∈ g, ∀ b ∈ g, Joined r items a b)
    (closed : ∀ g ∈ groups, ∀ a ∈ g, ∀ b, Linked r items a b → b ∈ g) :
    IsComponents r items groups where
  perm := perm
  inhabited := inhabited
  classes g hg a ha b := by
    constructor
    · exact joined g hg a ha b
    · exact Joined.mem_of_closed (fun c d hc => closed g hg c hc d) ha

/-- Lists are closed under links if no link leads from one of them to another. -/
theorem of_apart (perm : groups.flatten.Perm items) (inhabited : [] ∉ groups)
    (joined : ∀ g ∈ groups, ∀ a ∈ g, ∀ b ∈ g, Joined r items a b)
    (apart : groups.Pairwise fun g h => ∀ a ∈ g, ∀ b ∈ h, ¬ (r a b ∨ r b a)) :
    IsComponents r items groups := by
  apply of_closed perm inhabited joined
  intro g hg a ha b link
  obtain ⟨h, hh, hb⟩ := List.mem_flatten.mp (perm.mem_iff.mpr link.2.1)
  by_cases hgh : g = h
  · exact hgh ▸ hb
  · rcases pair_sublist_of_ne hg hh hgh with hsub | hsub
    · exact absurd link.2.2 (List.pairwise_iff_forall_sublist.mp apart hsub a ha b hb)
    · exact absurd link.2.2.symm (List.pairwise_iff_forall_sublist.mp apart hsub b hb a ha)

theorem mem_items (h : IsComponents r items groups) {g : List β} {a : β} (hg : g ∈ groups)
    (ha : a ∈ g) : a ∈ items :=
  h.perm.subset (List.mem_flatten.mpr ⟨g, hg, ha⟩)

theorem exists_group (h : IsComponents r items groups) {a : β} (ha : a ∈ items) :
    ∃ g ∈ groups, a ∈ g :=
  List.mem_flatten.mp (h.perm.mem_iff.mpr ha)

theorem joined (h : IsComponents r items groups) {g : List β} {a b : β} (hg : g ∈ groups)
    (ha : a ∈ g) (hb : b ∈ g) : Joined r items a b :=
  (h.classes g hg a ha b).mp hb

theorem closed (h : IsComponents r items groups) {g : List β} {a b : β} (hg : g ∈ groups)
    (ha : a ∈ g) (hb : Linked r items a b) : b ∈ g :=
  (h.classes g hg a ha b).mpr hb.joined

theorem congr (h : IsComponents r items groups)
    (hs : ∀ a b, Linked r items a b ↔ Linked s items a b) : IsComponents s items groups where
  perm := h.perm
  inhabited := h.inhabited
  classes g hg a ha b := by
    rw [h.classes g hg a ha b]
    constructor
    · exact Joined.mono fun c d link => ((hs c d).mp link).joined
    · exact Joined.mono fun c d link => ((hs c d).mpr link).joined

theorem of_perm {others : List β} (perm : items.Perm others) (h : IsComponents r items groups) :
    IsComponents r others groups := by
  have hlinks : ∀ a b, Linked r items a b ↔ Linked r others a b := by
    intro a b
    rw [Linked, Linked, perm.mem_iff, perm.mem_iff]
  refine ⟨h.perm.trans perm, h.inhabited, ?_⟩
  intro g hg a ha b
  rw [h.classes g hg a ha b]
  constructor
  · exact Joined.mono fun c d link => ((hlinks c d).mp link).joined
  · exact Joined.mono fun c d link => ((hlinks c d).mpr link).joined

theorem nodup_blocks {blocks : List γ} {f : γ → List β} (hn : items.Nodup)
    (h : IsComponents r items (blocks.map f)) : blocks.Nodup := by
  have hflat : (blocks.map f).flatten.Nodup := h.perm.nodup_iff.mpr hn
  have hdisjoint := (List.nodup_flatten.mp hflat).2
  rw [List.pairwise_map] at hdisjoint
  rw [List.nodup_iff_pairwise_ne]
  apply hdisjoint.imp_of_mem
  intro A B hA _ hAB hne
  subst hne
  obtain ⟨a, ha⟩ := List.exists_mem_of_ne_nil (f A) fun hnil =>
    h.inhabited (hnil ▸ List.mem_map_of_mem hA)
  exact hAB ha ha

/-- Joins the blocks that a relation between blocks joins. What it may join is what the links
between their items join, and it has to join all blocks with such links. -/
theorem glue {blocks : List γ} {f : γ → List β} {R : γ → γ → Prop} {parts : List (List γ)}
    (h : IsComponents r items (blocks.map f)) (hR : IsComponents R blocks parts)
    (wider : ∀ a b, Linked r items a b → Joined t items a b)
    (sound : ∀ A B, Linked R blocks A B → ∃ a ∈ f A, ∃ b ∈ f B, Linked t items a b)
    (complete : ∀ A ∈ blocks, ∀ B ∈ blocks, ∀ a ∈ f A, ∀ b ∈ f B, b ∉ f A →
      Linked t items a b → Linked R blocks A B) :
    IsComponents t items (parts.map fun part => part.flatMap f) := by
  have within : ∀ A ∈ blocks, ∀ a ∈ f A, ∀ b ∈ f A, Joined t items a b := by
    intro A hA a ha b hb
    exact (h.joined (List.mem_map_of_mem hA) ha hb).mono wider
  have nonempty : ∀ A ∈ blocks, f A ≠ [] := by
    intro A hA hnil
    exact h.inhabited (hnil ▸ List.mem_map_of_mem hA)
  -- along a path of blocks, every item of the first is joined with every item of the last
  have along : ∀ A B, Joined R blocks A B → A ∈ blocks → ∀ a ∈ f A, ∀ b ∈ f B,
      Joined t items a b := by
    intro A B path hA a ha
    induction path with
    | refl => exact within A hA a ha
    | @tail B C _ link ih =>
      intro c hc
      obtain ⟨b, hb, d, hd, hbd⟩ := sound B C link
      exact ((ih b hb).trans hbd.joined).trans (within C link.2.1 d hd c hc)
  apply of_closed
  · exact (flatten_flatMap_perm hR.perm f).trans h.perm
  · intro hmem
    obtain ⟨part, hpart, hnil⟩ := List.mem_map.mp hmem
    obtain ⟨A, hA⟩ := List.exists_mem_of_ne_nil part fun he => hR.inhabited (he ▸ hpart)
    exact nonempty A (hR.mem_items hpart hA) (List.flatMap_eq_nil_iff.mp hnil A hA)
  · intro g hg a ha b hb
    obtain ⟨part, hpart, rfl⟩ := List.mem_map.mp hg
    obtain ⟨A, hA, haA⟩ := List.mem_flatMap.mp ha
    obtain ⟨B, hB, hbB⟩ := List.mem_flatMap.mp hb
    exact along A B (hR.joined hpart hA hB) (hR.mem_items hpart hA) a haA b hbB
  · intro g hg a ha b link
    obtain ⟨part, hpart, rfl⟩ := List.mem_map.mp hg
    obtain ⟨A, hA, haA⟩ := List.mem_flatMap.mp ha
    obtain ⟨g, hg, hb⟩ := h.exists_group link.2.1
    obtain ⟨B, hB, rfl⟩ := List.mem_map.mp hg
    by_cases hbA : b ∈ f A
    · exact List.mem_flatMap.mpr ⟨A, hA, hbA⟩
    · have hlink := complete A (hR.mem_items hpart hA) B hB a haA b hb hbA link
      exact List.mem_flatMap.mpr ⟨B, hR.closed hpart hA hlink, hb⟩

/-- Components of parts that no link connects are components of the whole. -/
theorem of_parts {κ : Type} {keys : List κ} {part : κ → List β} {cut : κ → List (List β)}
    (perm : (keys.flatMap part).Perm items)
    (h : ∀ k ∈ keys, IsComponents r (part k) (cut k))
    (apart : ∀ k ∈ keys, ∀ l ∈ keys, ∀ a ∈ part k, ∀ b ∈ part l, r a b ∨ r b a → k = l) :
    IsComponents r items (keys.flatMap cut) := by
  have mem_items : ∀ k ∈ keys, ∀ a ∈ part k, a ∈ items := by
    intro k hk a ha
    exact perm.subset (List.mem_flatMap.mpr ⟨k, hk, ha⟩)
  apply of_closed
  · have hcut : (keys.flatMap cut).flatten = keys.flatMap fun k => (cut k).flatten := by
      rw [List.flatMap_def, List.flatten_flatten, List.map_map]
      rfl
    rw [hcut]
    exact (List.Perm.flatMap_left keys fun k hk => (h k hk).perm).trans perm
  · intro hmem
    obtain ⟨k, hk, hnil⟩ := List.mem_flatMap.mp hmem
    exact (h k hk).inhabited hnil
  · intro g hg a ha b hb
    obtain ⟨k, hk, hgk⟩ := List.mem_flatMap.mp hg
    apply ((h k hk).joined hgk ha hb).mono
    intro c d link
    exact Linked.joined ⟨mem_items k hk c link.1, mem_items k hk d link.2.1, link.2.2⟩
  · intro g hg a ha b link
    obtain ⟨k, hk, hgk⟩ := List.mem_flatMap.mp hg
    obtain ⟨l, hl, hb⟩ := List.mem_flatMap.mp (perm.mem_iff.mpr link.2.1)
    have hak := (h k hk).mem_items hgk ha
    obtain rfl := apart k hk l hl a hak b hb link.2.2
    exact (h k hk).closed hgk ha ⟨hak, hb, link.2.2⟩

/-- Components of items are components of their images under a map that keeps the relation. -/
theorem map {f : β → γ} {R : γ → γ → Prop} (h : IsComponents r items groups)
    (hR : ∀ a ∈ items, ∀ b ∈ items, R (f a) (f b) ↔ r a b) :
    IsComponents R (items.map f) (groups.map (List.map f)) := by
  apply of_closed
  · rw [← List.map_flatten]
    exact h.perm.map f
  · intro hmem
    obtain ⟨g, hg, hnil⟩ := List.mem_map.mp hmem
    exact h.inhabited (List.map_eq_nil_iff.mp hnil ▸ hg)
  · intro image himage a ha b hb
    obtain ⟨g, hg, rfl⟩ := List.mem_map.mp himage
    obtain ⟨c, hc, rfl⟩ := List.mem_map.mp ha
    obtain ⟨d, hd, rfl⟩ := List.mem_map.mp hb
    have path : Relation.ReflTransGen (Linked r items) c d := h.joined hg hc hd
    apply path.lift f
    intro x y link
    refine ⟨List.mem_map_of_mem link.1, List.mem_map_of_mem link.2.1, link.2.2.imp ?_ ?_⟩
    · exact (hR x link.1 y link.2.1).mpr
    · exact (hR y link.2.1 x link.1).mpr
  · intro image himage a ha b link
    obtain ⟨g, hg, rfl⟩ := List.mem_map.mp himage
    obtain ⟨c, hc, rfl⟩ := List.mem_map.mp ha
    obtain ⟨d, hd, rfl⟩ := List.mem_map.mp link.2.1
    have hc' := h.mem_items hg hc
    exact List.mem_map_of_mem (h.closed hg hc
      ⟨hc', hd, link.2.2.imp (hR c hc' d hd).mp (hR d hd c hc').mp⟩)

theorem nodup_group (hn : items.Nodup) (h : IsComponents r items groups) {g : List β}
    (hg : g ∈ groups) : g.Nodup :=
  (List.nodup_flatten.mp (h.perm.nodup_iff.mpr hn)).1 g hg

/-- Components are unique up to the order of the lists and of the items in each. -/
theorem exists_perm (hn : items.Nodup) {others : List (List β)} (h : IsComponents r items groups)
    (k : IsComponents r items others) :
    ∃ matched, matched.Perm others ∧ List.Forall₂ List.Perm groups matched := by
  have nodup : ∀ {gs : List (List β)}, IsComponents r items gs →
      (gs.map Multiset.ofList).Nodup := by
    intro gs hgs
    have hdisjoint := (List.nodup_flatten.mp (hgs.perm.nodup_iff.mpr hn)).2
    rw [List.nodup_iff_pairwise_ne, List.pairwise_map]
    apply hdisjoint.imp_of_mem
    intro g g' hg _ hgg' heq
    obtain ⟨a, ha⟩ := List.exists_mem_of_ne_nil g fun he => hgs.inhabited (he ▸ hg)
    exact hgg' ha ((Multiset.coe_eq_coe.mp heq).mem_iff.mp ha)
  have same : ∀ {gs gs' : List (List β)}, IsComponents r items gs → IsComponents r items gs' →
      ∀ g ∈ gs, ∃ g' ∈ gs', Multiset.ofList g' = Multiset.ofList g := by
    intro gs gs' hgs hgs' g hg
    obtain ⟨a, ha⟩ := List.exists_mem_of_ne_nil g fun he => hgs.inhabited (he ▸ hg)
    obtain ⟨g', hg', ha'⟩ := hgs'.exists_group (hgs.mem_items hg ha)
    refine ⟨g', hg', Multiset.coe_eq_coe.mpr ?_⟩
    rw [List.perm_ext_iff_of_nodup (hgs'.nodup_group hn hg') (hgs.nodup_group hn hg)]
    intro b
    rw [hgs'.classes g' hg' a ha' b, hgs.classes g hg a ha b]
  have hperm : (groups.map Multiset.ofList).Perm (others.map Multiset.ofList) := by
    rw [List.perm_ext_iff_of_nodup (nodup h) (nodup k)]
    intro m
    rw [List.mem_map, List.mem_map]
    constructor
    · rintro ⟨g, hg, rfl⟩
      exact same h k g hg
    · rintro ⟨g, hg, rfl⟩
      exact same k h g hg
  have hforall : List.Forall₂ (fun m g => m = Multiset.ofList g)
      (others.map Multiset.ofList) others := by
    rw [List.forall₂_map_left_iff]
    exact List.forall₂_refl others
  obtain ⟨matched, hmatched, hothers⟩ := List.perm_comp_forall₂ hperm hforall
  refine ⟨matched, hothers, ?_⟩
  rw [List.forall₂_map_left_iff] at hmatched
  exact hmatched.imp fun g g' heq => Multiset.coe_eq_coe.mp heq

/-- Items that are all joined are one component. -/
theorem eq_singleton (hn : items.Nodup) (h : IsComponents r items groups) (hne : items ≠ [])
    (hall : ∀ a ∈ items, ∀ b ∈ items, Joined r items a b) : ∃ g, groups = [g] ∧ g.Perm items := by
  have hone : IsComponents r items [items] := by
    apply of_closed
    · simp
    · simpa using hne.symm
    · intro g hg
      rwa [List.mem_singleton.mp hg]
    · intro g hg a _ b link
      rw [List.mem_singleton.mp hg]
      exact link.2.1
  obtain ⟨matched, hperm, hmatched⟩ := hone.exists_perm hn h
  match matched, hmatched with
  | [g], hmatched =>
    obtain ⟨hg, _⟩ := List.forall₂_cons.mp hmatched
    exact ⟨g, List.perm_singleton.mp hperm.symm, hg.symm⟩

end IsComponents

end ShowerTrack
