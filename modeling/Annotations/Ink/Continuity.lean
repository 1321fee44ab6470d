import Annotations.Ink.InFlight

/-! Stroke continuity. `stamp` numbers the operation that handled the event whose
position a point records, so two points are joined without a break when the layer was
live, with the stroke still in flight, in every state between those two operations. -/

namespace Annotations

open Sheets Runs

variable {K : Type} [Scalar K]

namespace MetaAnnotationLayer

variable {layer : MetaAnnotationLayer K}

/-- Active, unpaused, and with a stroke in flight. -/
def inking (layer : MetaAnnotationLayer K) : Bool :=
  layer.active && !layer.paused && layer.strokeActive

/-- The layer was inking in every state after operation `p` and before operation `q`. -/
def Unbroken (start : MetaAnnotationLayer K) (ops : List (LayerOp K)) (p q : ℕ) : Prop :=
  ∀ k, p < k → k ≤ q → (stateAt step start ops k).inking

/-- The operation handled an event. -/
def Handled (ops : List (LayerOp K)) (p : ℕ) : Prop :=
  ∃ event nowUs, ops[p]? = some (.handleEvent event nowUs)

/-- What the run stored and painted is continuous: every stored point records a handled
event, consecutive points of a stroke were joined without a break, and so are the ends
of a segment that an event is about to paint. -/
structure InkContinuous (start : MetaAnnotationLayer K) (ops : List (LayerOp K)) : Prop where
  handled : ∀ k ≤ ops.length, ∀ c strokes, (stateAt step start ops k).canvasStrokes c = some strokes →
    ∀ s ∈ strokes, ∀ p ∈ s.points, Handled ops p.stamp
  stored : ∀ k ≤ ops.length, ∀ c strokes, (stateAt step start ops k).canvasStrokes c = some strokes →
    ∀ s ∈ strokes, s.points.IsChain fun p q => Unbroken start ops p.stamp q.stamp
  painted : ∀ k event nowUs, ops[k]? = some (.handleEvent event nowUs) →
    (stateAt step start ops k).continues event →
    Handled ops (stateAt step start ops k).ledger.strokeLastStamp ∧
      Unbroken start ops (stateAt step start ops k).ledger.strokeLastStamp k

/-- The layer is not deactivated while a stroke is in flight. -/
def NotHalted (layer : MetaAnnotationLayer K) (op : LayerOp K) : Prop :=
  op = .call (.setActive false) → layer.strokeActive = false

variable {start : MetaAnnotationLayer K} {ops : List (LayerOp K)}

/-- One operation later, the pen was inking there too. -/
theorem Unbroken.succ {p k : ℕ} (h : Unbroken start ops p k)
    (hinking : (stateAt step start ops (k + 1)).inking) : Unbroken start ops p (k + 1) := by
  intro j hpj hjk
  rcases Nat.le_succ_iff.mp hjk with hle | rfl
  · exact h j hpj hle
  · exact hinking

/-- An operation that does not halt the pen keeps the ink continuous. -/
theorem continuous_step {k : ℕ} {op : LayerOp K} (hget : ops[k]? = some op)
    (hlayer : stateAt step start ops k = layer) (hwf : WellFormed layer.sheets)
    (hcont : Continuous (Handled ops) (Unbroken start ops) layer.sheets)
    (hclock : layer.sheets.clock = k) (hop : NotHalted layer op) :
    Continuous (Handled ops) (Unbroken start ops) (layer.step op).sheets ∧
      (layer.step op).sheets.clock = k + 1 := by
  have hmoves := moves_exec hwf op
  have hhalt : ¬ layer.allows op .halt := fun h => by
    obtain ⟨hcall, hdown⟩ := allows_halt h
    simp [hop hcall] at hdown
  have hhandled : layer.allows op .pen ∨ layer.allows op .stray → Handled ops layer.sheets.clock := by
    intro h
    obtain ⟨event, nowUs, rfl⟩ := allows_pen h
    exact ⟨event, nowUs, by rw [hclock, hget]⟩
  have hrefl : ∀ n, Unbroken start ops n n := fun n j hj hj' => absurd hj (by omega)
  have hcont' := hmoves.continuous hhalt hhandled hrefl hwf hcont
  have hclock' := hmoves.clock_eq
  have hnext : stateAt step start ops (k + 1) = layer.step op := by rw [stateAt_succ hget, hlayer]
  refine ⟨hcont'.tick (hmoves.wellFormed hwf) fun hdown p hp => ?_, ?_⟩
  · obtain ⟨hlive, _, _⟩ := hcont'.ongoing hdown
    rw [hclock', hclock] at hp ⊢
    refine hp.succ ?_
    rw [hnext, inking, Bool.and_eq_true]
    exact ⟨hlive, hdown⟩
  · change (layer.exec op).sheets.clock + 1 = k + 1
    rw [hclock', hclock]

theorem continuous_stateAt (hwf : WellFormed start.sheets)
    (hstart : Continuous (Handled ops) (Unbroken start ops) start.sheets)
    (hclock : start.sheets.clock = 0) (hops : Along step NotHalted start ops) {k : ℕ}
    (hk : k ≤ ops.length) :
    Continuous (Handled ops) (Unbroken start ops) (stateAt step start ops k).sheets ∧
      (stateAt step start ops k).sheets.clock = k := by
  have hinv : WellFormed (stateAt step start ops k).sheets ∧
      Continuous (Handled ops) (Unbroken start ops) (stateAt step start ops k).sheets ∧
      (stateAt step start ops k).sheets.clock = k := by
    refine stateAt_invariant (P := fun k layer => WellFormed (sheets layer) ∧
      Continuous (Handled ops) (Unbroken start ops) layer.sheets ∧ layer.sheets.clock = k)
      ⟨hwf, hstart, hclock⟩ (fun k op hget hinv => ?_) hk
    obtain ⟨hwf', hcont, hclock'⟩ := hinv
    exact ⟨wellFormed_step hwf' op, continuous_step hget rfl hwf' hcont hclock' (hops.get hget)⟩
  exact hinv.2

theorem continuous_new (display : MetaDisplay) (input : AnnotationInput K) (width height : ℤ)
    (Q : ℕ → Prop) (R : ℕ → ℕ → Prop) (hR : ∀ n, R n n) :
    Continuous Q R (metaAnnotationLayerNew display input width height).sheets := by
  refine (moves_new display input width height).continuous (by simp) (by simp) hR
    (wellFormed_zero display input) ⟨every_sheets_zero display input _, every_sheets_zero display input _, ?_⟩
  simp [sheets, metaAnnotationLayerZero]

/-- What was stored and painted is continuous in every run that does not deactivate the
layer while a stroke is in flight. -/
theorem inkContinuous_of_notHalted (display : MetaDisplay) (input : AnnotationInput K)
    (width height : ℤ) (ops : List (LayerOp K))
    (hops : Along step NotHalted (metaAnnotationLayerNew display input width height) ops) :
    InkContinuous (metaAnnotationLayerNew display input width height) ops := by
  have hclock : (metaAnnotationLayerNew display input width height).sheets.clock = 0 :=
    (moves_new display input width height).clock_eq
  have hcont : ∀ k ≤ ops.length, _ := fun k (hk : k ≤ ops.length) => continuous_stateAt
    (wellFormed_new ..) (continuous_new display input width height _ _
      fun n j hj hj' => absurd hj (by omega)) hclock hops hk
  refine ⟨fun k hk c strokes hstrokes s hs p hp => ?_, fun k hk c strokes hstrokes s hs => ?_,
    fun k event nowUs hget hcontinues => ?_⟩
  · have hjoined := line_of_every (hcont k hk).1.joined hstrokes hs
    exact hjoined.1 _ (List.mem_map_of_mem hp)
  · have hjoined := line_of_every (hcont k hk).1.joined hstrokes hs
    exact (List.isChain_map _).mp hjoined.2
  · have hk : k < ops.length := (List.getElem?_eq_some_iff.mp hget).1
    obtain ⟨hcont', hclock'⟩ := hcont k hk.le
    simp only [continues, Bool.and_eq_true] at hcontinues
    obtain ⟨_, hlast, hjoined⟩ := hcont'.ongoing hcontinues.1.2
    rw [hclock'] at hjoined
    exact ⟨hlast, hjoined⟩

theorem inkContinuous_of_notHalted_lifted :
    InkContinuous (metaAnnotationLayerNew .bare .initial 10 10)
      [.call (.setActive true), .handleEvent (.pen .buttonPress 1 1 1 true) 0,
        .handleEvent (.pen .motion 5 5 0 true) 1, .handleEvent (.pen .buttonRelease 5 5 1 false) 2,
        .call (.setActive false)] := by
  refine inkContinuous_of_notHalted _ _ _ _ _ ⟨?_, ?_, ?_, ?_, fun _ => by decide +kernel, trivial⟩ <;>
    exact fun h => by cases h

/-- A pen that stays down while the layer is deactivated and activated again: the new
stroke starts at the position from before the deactivation. -/
theorem not_inkContinuous_reactivated :
    ¬ InkContinuous (metaAnnotationLayerNew .bare .initial 10 10)
      [.call (.setActive true), .handleEvent (.pen .buttonPress 1 1 1 true) 0,
        .call (.setActive false), .call (.setActive true),
        .handleEvent (.pen .motion 5 5 0 true) 1] := by
  intro h
  have hstored := h.stored 5 le_rfl none _ rfl
  generalize hfinal : MetaAnnotationLayer.unattachedStrokes _ = strokes at hstored
  have hstamps : strokes.map (fun s => s.points.map (·.stamp)) = [[1], [1, 4]] := by
    rw [← hfinal]
    decide +kernel
  have hmem : [1, 4] ∈ strokes.map fun s => s.points.map (·.stamp) := by
    rw [hstamps]
    simp
  obtain ⟨s, hs, hs'⟩ := List.mem_map.mp hmem
  have hchain := (List.isChain_map fun p : InkPoint ℚ => p.stamp).mpr (hstored s hs)
  rw [hs', List.isChain_pair] at hchain
  have hinking := hchain 3 (by decide) (by decide)
  revert hinking
  decide +kernel

end MetaAnnotationLayer

end Annotations
