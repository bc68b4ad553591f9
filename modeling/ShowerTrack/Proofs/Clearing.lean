import ShowerTrack.Reconstructor

/-!
# Clearing between events

Nothing that happens in an event outlasts the clearing before the next one: every operation on
a detector leaves it with the same cleared form. What an event becomes depends on the cleared
form alone, and so not on the events before it.
-/

set_option autoImplicit false

namespace ShowerTrack

variable {α : Type}

/-- What a change of an entry leaves alone can be read off the list before or after it. -/
theorem map_modify_of_eq {β γ : Type} {f : β → β} {g : β → γ} {l : List β} {i : Nat}
    (h : ∀ b ∈ l, g (f b) = g b) : (l.modify i f).map g = l.map g := by
  induction l generalizing i with
  | nil => rw [List.modify_nil]
  | cons b l ih =>
    cases i with
    | zero => rw [List.modify_zero_cons, List.map_cons, List.map_cons, h b (by simp)]
    | succ i =>
      rw [List.modify_succ_cons, List.map_cons, List.map_cons, ih fun c hc => h c (by simp [hc])]

namespace StripPlane

theorem clear_add [Scalar α] (p : StripPlane α) (strip : Int) (charge : α) (crossTalk : Bool) :
    (p.add strip charge crossTalk).1.clear = p.clear := by
  unfold add
  split
  · rfl
  · rfl

end StripPlane

namespace Chamber

theorem clear_clear (c : Chamber α) : c.clear.clear = c.clear := rfl

theorem clear_withPlane (c : Chamber α) (kind : Plane) {p : StripPlane α}
    (h : p.clear = (c.plane kind).clear) : (c.withPlane kind p).clear = c.clear := by
  cases kind with
  | x => simp only [withPlane, clear, h, plane]
  | y => simp only [withPlane, clear, h, plane]

theorem clear_add [Scalar α] (c : Chamber α) (kind : Plane) (strip : Int) (charge : α) :
    (c.add kind strip charge).1.clear = c.clear :=
  clear_withPlane c kind ((c.plane kind).clear_add strip charge false)

/-- A chamber with an unread plane keeps its strips, but they are cleared like all others. -/
theorem clear_reconstruct [Scalar α] (c : Chamber α) (s : TrackerSettings α) :
    (c.reconstruct s).clear = c.clear := by
  unfold reconstruct
  split
  · rfl
  · rfl

end Chamber

namespace Calorimeter

theorem clear_modify [Scalar α] (d : Calorimeter α) (i : Nat) {f : Channel α → Channel α}
    (h : ∀ c, { f c with energy := 0 } = { c with energy := (0 : α) }) :
    (d.modify i f).clear = d.clear := by
  simp only [modify, clear]
  rw [map_modify_of_eq fun c _ => h c]

theorem clear_clear [Scalar α] (d : Calorimeter α) : d.clear.clear = d.clear := by
  simp only [clear, List.map_map]
  rfl

theorem clear_addEnergy [Scalar α] (d : Calorimeter α) (id : Int) (energy : α) :
    (d.addEnergy id energy).1.clear = d.clear := by
  unfold addEnergy
  split
  · rfl
  · split
    · rfl
    · split
      · exact clear_modify d _ fun _ => rfl
      · rfl

theorem clear_reconstruct [Elementary α] (d : Calorimeter α) (s : CaloSettings α)
    (p : Profile α) : (d.reconstruct s p).clear = d.clear := rfl

end Calorimeter

namespace Reconstructor

variable [Elementary α]

theorem clear_clear (r : Reconstructor α) : r.clear.clear = r.clear := by
  simp only [clear, Calorimeter.clear_clear, Chamber.clear_clear]

theorem clear_fillBlock (r : Reconstructor α) (b : BlockEnergy α) :
    (r.fillBlock b).1.clear = r.clear := by
  simp only [fillBlock, clear, Calorimeter.clear_addEnergy]

theorem clear_fire (c : Chamber α) (key : StripKey) (charge : α) :
    (fire c key charge).1.clear = c.clear :=
  c.clear_add key.plane key.strip charge

theorem clear_fillStrip (r : Reconstructor α) (event : Nat) (s : StripSamples α) :
    (r.fillStrip event s).1.clear = r.clear := by
  unfold fillStrip
  split
  · rfl
  · split
    · simp only [clear, clear_fire]
    · rfl
  · split
    · simp only [clear, clear_fire]
    · rfl

theorem clear_fillBlocks (bs : List (BlockEnergy α)) (r : Reconstructor α) :
    (fillBlocks bs r).1.clear = r.clear := by
  induction bs generalizing r with
  | nil => rfl
  | cons b bs ih => exact (ih (r.fillBlock b).1).trans (r.clear_fillBlock b)

theorem clear_fillStrips (event : Nat) (ss : List (StripSamples α)) (r : Reconstructor α) :
    (fillStrips event ss r).1.clear = r.clear := by
  induction ss generalizing r with
  | nil => rfl
  | cons s ss ih => exact (ih (r.fillStrip event s).1).trans (r.clear_fillStrip event s)

theorem clear_fill (r : Reconstructor α) (e : RawEvent α) : (r.fill e).1.clear = r.clear :=
  (clear_fillStrips e.number e.strips _).trans (clear_fillBlocks e.blocks r)

theorem clear_runDetectors (r : Reconstructor α) : r.runDetectors.clear = r.clear := by
  simp only [runDetectors, clear, Calorimeter.clear_reconstruct, Chamber.clear_reconstruct]

theorem clear_reconstruct (r : Reconstructor α) (e : RawEvent α) :
    (r.reconstruct e).1.clear = r.clear := by
  have hdone : (r.reconstruct e).1 = (r.clear.fill e).1.runDetectors := rfl
  rw [hdone, clear_runDetectors, clear_fill, clear_clear]

theorem reconstruct_congr {r t : Reconstructor α} (h : r.clear = t.clear) (e : RawEvent α) :
    r.reconstruct e = t.reconstruct e := by
  simp only [reconstruct, h]

theorem notices_congr {r t : Reconstructor α} (h : r.clear = t.clear) (e : RawEvent α) :
    r.notices e = t.notices e := by
  simp only [notices, reconstruct_congr h e, h]

def after (r : Reconstructor α) (history : List (RawEvent α)) : Reconstructor α :=
  history.foldl (fun r e => (r.reconstruct e).1) r

theorem clear_after (r : Reconstructor α) (history : List (RawEvent α)) :
    (r.after history).clear = r.clear := by
  induction history generalizing r with
  | nil => rfl
  | cons e history ih => exact (ih (r.reconstruct e).1).trans (r.clear_reconstruct e)

/-- After any events, a reconstructor makes of the next one what a new reconstructor makes of
it. The detectors it leaves behind are the same too, with all that they hold. -/
theorem reconstruct_after_history (settings : Settings α) (profile : Profile α)
    (alignment : Alignment α) (pedestals : PedestalTable α)
    (calibrations : List (BlockCalibration α)) (history : List (RawEvent α)) (e : RawEvent α) :
    let fresh := ((build settings profile alignment pedestals).applyCalibrations calibrations).1
    (fresh.after history).reconstruct e = fresh.reconstruct e ∧
      (fresh.after history).notices e = fresh.notices e := by
  intro fresh
  have hclear : (fresh.after history).clear = fresh.clear := fresh.clear_after history
  exact ⟨reconstruct_congr hclear e, notices_congr hclear e⟩

end Reconstructor

end ShowerTrack
