import ShowerTrack.Proofs.Carried

/-!
# Energy accounts

A block with peaks gives away its energy in pieces. None is made up, and what is missing was cut
off as too small a share.
-/

set_option autoImplicit false

namespace ShowerTrack

section Keys

variable {β ι κ : Type} {key : ι → κ} {items : List ι} {blocks : List β} {members : β → List ι}

theorem nodup_keys_of_cover (hitems : (items.map key).Nodup)
    (hcover : (blocks.flatMap members).Subperm items) :
    ((blocks.flatMap members).map key).Nodup := by
  obtain ⟨part, hperm, hsub⟩ := hcover
  exact (hperm.map key).nodup_iff.mp (hitems.sublist (hsub.map key))

theorem nodup_keys_of_mem (hn : ((blocks.flatMap members).map key).Nodup) {b : β}
    (hb : b ∈ blocks) : ((members b).map key).Nodup := by
  rw [List.map_flatMap, List.nodup_flatMap] at hn
  exact hn.1 b hb

end Keys

variable {α ι κ : Type} [Exact α] [DecidableEq κ]

/-- What the pieces of a number of blocks, each shared between its peaks, say of the energies. -/
structure Accounts {β : Type} (key : ι → κ) (energy : ι → α) (passes : Nat) (least : α)
    (items : List ι) (blocks : List β) (sharing : β → Sharing α ι) (pieces : List (κ × α)) :
    Prop where
  whole : ∀ b ∈ blocks, (sharing b).peaks ≠ [] → ∀ n, ∀ r ∈ (sharing b).shares n,
    IsWhole (sharing b).peaks.length r.2
  bounded : ∀ i ∈ items, carried (key i) pieces ≤ energy i
  single : ∀ b ∈ blocks, (sharing b).peaks.length = 1 → ∀ i ∈ (sharing b).items,
    carried (key i) pieces = energy i
  missing : ∀ b ∈ blocks, 1 < (sharing b).peaks.length → ∀ i ∈ (sharing b).items,
    energy i - carried (key i) pieces = energy i * (sharing b).lost key passes least i
  uncut : least ≤ 0 → ∀ b ∈ blocks, (sharing b).peaks ≠ [] → ∀ i ∈ (sharing b).items,
    carried (key i) pieces = energy i

/-- How a block has to be split for its pieces to account for its energy: not at all without
peaks, into its items for one peak, and into the pieces of all peaks for several. -/
structure SplitsInto (g : Sharing α ι) (key : ι → κ) (passes : Nat) (least : α)
    (pieces : List (κ × α)) : Prop where
  none : g.peaks = [] → pieces = []
  single : g.peaks.length = 1 → pieces = g.items.map fun i => (key i, g.energy i)
  several : 1 < g.peaks.length →
    pieces.Perm (g.peaks.zipIdx.flatMap fun p => g.pieces key passes least p.1 p.2)

namespace SplitsInto

variable {g : Sharing α ι} {key : ι → κ} {passes : Nat} {least : α} {pieces : List (κ × α)}

theorem key_mem (h : SplitsInto g key passes least pieces) {p : κ × α} (hp : p ∈ pieces) :
    p.1 ∈ g.items.map key := by
  rcases Nat.lt_trichotomy g.peaks.length 1 with hlength | hlength | hlength
  · rw [h.none (List.length_eq_zero_iff.mp (by omega))] at hp
    exact absurd hp List.not_mem_nil
  · rw [h.single hlength] at hp
    obtain ⟨i, hi, rfl⟩ := List.mem_map.mp hp
    exact List.mem_map_of_mem hi
  · obtain ⟨peak, _, hp⟩ := List.mem_flatMap.mp ((h.several hlength).mem_iff.mp hp)
    obtain ⟨i, hi, rfl⟩ := List.mem_map.mp hp
    exact List.mem_map_of_mem (List.mem_of_mem_filter hi)

theorem carried_single (h : SplitsInto g key passes least pieces)
    (hn : (g.items.map key).Nodup) (hlength : g.peaks.length = 1) {i : ι} (hi : i ∈ g.items) :
    carried (key i) pieces = g.energy i := by
  have hall := carried_map_filter hn (fun _ => true) g.energy hi
  rw [List.filter_true] at hall
  rw [h.single hlength, hall]
  rfl

theorem carried_several (h : SplitsInto g key passes least pieces) (hsound : g.Sound)
    (hn : (g.items.map key).Nodup) (hlength : 1 < g.peaks.length) {i : ι} (hi : i ∈ g.items) :
    carried (key i) pieces = g.energy i * (1 - g.lost key passes least i) := by
  rw [carried_of_perm (h.several hlength), carried_flatMap,
    Sharing.sum_carried_pieces hsound hn _ _ hi]

theorem carried_le (h : SplitsInto g key passes least pieces) (hsound : g.peaks ≠ [] → g.Sound)
    (hn : (g.items.map key).Nodup) {i : ι} (hi : i ∈ g.items) (henergy : 0 ≤ g.energy i) :
    carried (key i) pieces ≤ g.energy i := by
  rcases Nat.lt_trichotomy g.peaks.length 1 with hlength | hlength | hlength
  · rw [h.none (List.length_eq_zero_iff.mp (by omega))]
    exact henergy
  · exact (h.carried_single hn hlength hi).le
  · have hsound := hsound (List.ne_nil_of_length_pos (by omega))
    rw [h.carried_several hsound hn hlength hi]
    have hlost := Sharing.lost_nonneg hsound key passes least i
    exact mul_le_of_le_one_right henergy (by linarith)

end SplitsInto

section Blocks

variable {β : Type} {key : ι → κ} {energy : ι → α} {passes : Nat} {least : α} {items : List ι}
  {blocks : List β} {sharing : β → Sharing α ι} {split : β → List (κ × α)} {b : β} {i : ι}

section Pieces

variable (hn : ((blocks.flatMap fun b => (sharing b).items).map key).Nodup)
  (hsplit : ∀ b ∈ blocks, SplitsInto (sharing b) key passes least (split b))

include hsplit

/-- The pieces of a block carry nothing of an item that is in none. -/
theorem carried_of_not_mem (hkey : key i ∉ (blocks.flatMap fun b => (sharing b).items).map key) :
    carried (key i) (blocks.flatMap split) = 0 := by
  apply carried_of_forall_ne
  intro p hp hpi
  obtain ⟨b, hb, hpb⟩ := List.mem_flatMap.mp hp
  obtain ⟨j, hj, hjp⟩ := List.mem_map.mp ((hsplit b hb).key_mem hpb)
  apply hkey
  rw [← hpi, ← hjp]
  exact List.mem_map_of_mem (List.mem_flatMap.mpr ⟨b, hb, hj⟩)

include hn

/-- What is carried of an item is carried by the pieces of its own block. -/
theorem carried_of_mem (hb : b ∈ blocks) (hi : i ∈ (sharing b).items) :
    carried (key i) (blocks.flatMap split) = carried (key i) (split b) :=
  carried_flatMap_of_mem hn (fun c hc _ hp => (hsplit c hc).key_mem hp) hb hi

theorem carried_of_single (hb : b ∈ blocks) (hlength : (sharing b).peaks.length = 1)
    (hi : i ∈ (sharing b).items) :
    carried (key i) (blocks.flatMap split) = (sharing b).energy i := by
  rw [carried_of_mem hn hsplit hb hi]
  exact (hsplit b hb).carried_single (nodup_keys_of_mem hn hb) hlength hi

theorem carried_of_several (hb : b ∈ blocks) (hsound : (sharing b).Sound)
    (hlength : 1 < (sharing b).peaks.length) (hi : i ∈ (sharing b).items) :
    carried (key i) (blocks.flatMap split) =
      (sharing b).energy i * (1 - (sharing b).lost key passes least i) := by
  rw [carried_of_mem hn hsplit hb hi]
  exact (hsplit b hb).carried_several hsound (nodup_keys_of_mem hn hb) hlength hi

/-- Without a least share nothing is lost of an item whose block has a peak. -/
theorem carried_of_least_nonpos (hleast : least ≤ 0) (hb : b ∈ blocks) (hsound : (sharing b).Sound)
    (hpeaks : (sharing b).peaks ≠ []) (hi : i ∈ (sharing b).items) :
    carried (key i) (blocks.flatMap split) = (sharing b).energy i := by
  have hlength := List.length_pos_of_ne_nil hpeaks
  rcases Nat.lt_or_ge 1 (sharing b).peaks.length with hmany | hone
  · rw [carried_of_several hn hsplit hb hsound hmany hi,
      Sharing.lost_of_least_nonpos hsound key passes hleast i]
    ring
  · exact carried_of_single hn hsplit hb (by omega) hi

end Pieces

/-- No more is carried of an item than its energy, in whatever block it is, or in none. -/
theorem carried_le_energy (hitems : (items.map key).Nodup)
    (hcover : (blocks.flatMap fun b => (sharing b).items).Subperm items)
    (henergy : ∀ b ∈ blocks, (sharing b).energy = energy)
    (hsound : ∀ b ∈ blocks, (sharing b).peaks ≠ [] → (sharing b).Sound)
    (hsplit : ∀ b ∈ blocks, SplitsInto (sharing b) key passes least (split b))
    (hi : i ∈ items) (hnonneg : 0 ≤ energy i) :
    carried (key i) (blocks.flatMap split) ≤ energy i := by
  have hn := nodup_keys_of_cover hitems hcover
  by_cases hkey : key i ∈ (blocks.flatMap fun b => (sharing b).items).map key
  · obtain ⟨j, hj, hji⟩ := List.mem_map.mp hkey
    obtain rfl : j = i := List.inj_on_of_nodup_map hitems (hcover.subset hj) hi hji
    obtain ⟨b, hb, hjb⟩ := List.mem_flatMap.mp hj
    rw [carried_of_mem hn hsplit hb hjb, ← henergy b hb]
    exact (hsplit b hb).carried_le (hsound b hb) (nodup_keys_of_mem hn hb) hjb
      (henergy b hb ▸ hnonneg)
  · rw [carried_of_not_mem hsplit hkey]
    exact hnonneg

/-- Blocks that share no item account for the energy of the items when each is split so. -/
theorem Accounts.of_split (hitems : (items.map key).Nodup) (hnonneg : ∀ i ∈ items, 0 ≤ energy i)
    (hcover : (blocks.flatMap fun b => (sharing b).items).Subperm items)
    (henergy : ∀ b ∈ blocks, (sharing b).energy = energy)
    (hsound : ∀ b ∈ blocks, (sharing b).peaks ≠ [] → (sharing b).Sound)
    (hsplit : ∀ b ∈ blocks, SplitsInto (sharing b) key passes least (split b)) :
    Accounts key energy passes least items blocks sharing (blocks.flatMap split) := by
  have hn := nodup_keys_of_cover hitems hcover
  constructor
  · intro b hb hpeaks n r hr
    rw [Sharing.shares_eq] at hr
    obtain ⟨i, _, rfl⟩ := List.mem_map.mp hr
    exact Sharing.isWhole_lastRow (hsound b hb hpeaks) n i
  · intro i hi
    exact carried_le_energy hitems hcover henergy hsound hsplit hi (hnonneg i hi)
  · intro b hb hlength i hi
    rw [carried_of_single hn hsplit hb hlength hi, henergy b hb]
  · intro b hb hlength i hi
    have hpeaks := List.ne_nil_of_length_pos (by omega : 0 < (sharing b).peaks.length)
    rw [carried_of_several hn hsplit hb (hsound b hb hpeaks) hlength hi, henergy b hb]
    ring
  · intro hleast b hb hpeaks i hi
    rw [carried_of_least_nonpos hn hsplit hleast hb (hsound b hb hpeaks) hpeaks hi, henergy b hb]

end Blocks

end ShowerTrack
