import Croesus.Library.Execution
import Mathlib.Logic.Function.Iterate
import Mathlib.Tactic.SplitIfs

namespace Croesus.ActivityIndicator

open Library

variable {κ : Type*}

/-- A view with tag 1000, numbered in the order in which they are made, with
the controller to whose view it was added. Its activity indicator, which comes
and goes with it, is left out. -/
structure BlurView (κ : Type*) where
  number : ℕ
  superview : κ
  deriving DecidableEq

/-- The overlays of all screens: what `viewWithTag(1000)` finds in the view of
a controller, the global that holds the latest overlay, and the number of
blocks on the main queue, which capture nothing but the globals. -/
structure Overlays (κ : Type*) where
  subviews : κ → Option (BlurView κ) := fun _ ↦ none
  blurView : Option (BlurView κ) := none
  queue : ℕ := 0
  made : ℕ := 0

inductive Event (κ : Type*)
  | showLoadingAdded (self : κ)
  | hideLoading (self : κ)
  | block
  deriving DecidableEq

variable [DecidableEq κ]

namespace Overlays

/-- `showLoadingAdded(to: self.view)` -/
def showLoadingAdded (l : Overlays κ) (self : κ) : Overlays κ :=
  match l.subviews self with
  | some _ => l
  | none =>
    let blurView : BlurView κ := ⟨l.made, self⟩
    { l with
      subviews := Function.update l.subviews self (some blurView)
      blurView := some blurView
      made := l.made + 1 }

def hideLoading (l : Overlays κ) : Overlays κ :=
  match l.blurView with
  | none => l
  | some _ => { l with queue := l.queue + 1 }

def removeFromSuperview (l : Overlays κ) (view : BlurView κ) : Overlays κ :=
  if l.subviews view.superview = some view then
    { l with subviews := Function.update l.subviews view.superview none }
  else l

/-- The block that `hideLoading` queues looks the global up when it runs. -/
def block (l : Overlays κ) : Overlays κ :=
  match l.queue, l.blurView with
  | 0, _ | _, none => l
  | queue + 1, some view => { l.removeFromSuperview view with queue := queue }

def step (l : Overlays κ) : Event κ → Overlays κ
  | .showLoadingAdded self => l.showLoadingAdded self
  | .hideLoading _ => l.hideLoading
  | .block => l.block

def run (events : List (Event κ)) : Overlays κ := events.foldl step {}

def drain (l : Overlays κ) : Overlays κ := block^[l.queue] l

/-- What the view of a controller is left with once the queue has drained. -/
def remaining (l : Overlays κ) (c : κ) : Option (BlurView κ) :=
  if l.queue ≠ 0 ∧ l.subviews c = l.blurView then none else l.subviews c

/-- An overlay is only added while no removal is queued, unless the view has one
already, which is not the latest. A removal is only queued by the controller
that has added the latest overlay, or by one without an overlay of its own after
that has gone; and if one is queued already, only by a controller whose view has
no overlay, or the latest. -/
def IsSafe (l : Overlays κ) : Event κ → Prop
  | .showLoadingAdded self =>
    l.queue = 0 ∨ l.subviews self ≠ none ∧ l.subviews self ≠ l.blurView
  | .hideLoading self =>
    if l.queue = 0 then ∀ view ∈ l.blurView, view.superview = self ∨
      l.subviews view.superview = none ∧ l.subviews self = none
    else l.subviews self = none ∨ l.subviews self = l.blurView
  | .block => True

instance (l : Overlays κ) : ∀ e, Decidable (l.IsSafe e)
  | .showLoadingAdded self => inferInstanceAs (Decidable (
      l.queue = 0 ∨ l.subviews self ≠ none ∧ l.subviews self ≠ l.blurView))
  | .hideLoading self => inferInstanceAs (Decidable (
      if l.queue = 0 then ∀ view ∈ l.blurView, view.superview = self ∨
        l.subviews view.superview = none ∧ l.subviews self = none
      else l.subviews self = none ∨ l.subviews self = l.blurView))
  | .block => .isTrue trivial

end Overlays

/-- Whether the last call of each controller was `showLoadingAdded`. -/
def lastCall (shown : κ → Bool) : Event κ → κ → Bool
  | .showLoadingAdded self => Function.update shown self true
  | .hideLoading self => Function.update shown self false
  | .block => shown

def isShown (events : List (Event κ)) : κ → Bool := events.foldl lastCall fun _ ↦ false

namespace Overlays

/-- The global names the latest overlay, if there was any. -/
structure Consistent (l : Overlays κ) : Prop where
  superview : ∀ c view, l.subviews c = some view → view.superview = c
  latest : ∀ view, l.blurView = some view →
    l.subviews view.superview = none ∨ l.subviews view.superview = some view
  unused : l.blurView = none → l.queue = 0 ∧ ∀ c, l.subviews c = none

omit [DecidableEq κ] in
theorem Consistent.empty : Consistent ({} : Overlays κ) where
  superview c view h := by cases h
  latest view h := by cases h
  unused _ := ⟨rfl, fun _ ↦ rfl⟩

variable {l : Overlays κ} {shown : κ → Bool}

theorem remaining_idle (h : l.queue = 0) (c : κ) : l.remaining c = l.subviews c := by
  simp [remaining, h]

theorem remaining_queued (h : l.queue ≠ 0) {c : κ} :
    l.remaining c = none ↔ l.subviews c = none ∨ l.subviews c = l.blurView := by
  rw [remaining]
  by_cases hlatest : l.subviews c = l.blurView
  · simp [h, hlatest]
  · simp [hlatest]

theorem remaining_eq_some {c : κ} {view : BlurView κ} (h : l.remaining c = some view) :
    l.subviews c = some view := by
  rw [remaining] at h
  split_ifs at h
  exact h

theorem Consistent.showLoadingAdded (h : Consistent l) (self : κ) :
    Consistent (l.showLoadingAdded self) := by
  rw [Overlays.showLoadingAdded]
  split
  · exact h
  · refine ⟨fun c view hc ↦ ?_, fun view hview ↦ ?_, fun hnone ↦ by cases hnone⟩
    · dsimp only at hc
      by_cases hself : c = self
      · subst hself
        rw [Function.update_self] at hc
        rw [← Option.some.inj hc]
      · rw [Function.update_of_ne hself] at hc
        exact h.superview c view hc
    · obtain rfl := Option.some.inj hview
      exact .inr (Function.update_self ..)

theorem showLoadingAdded_subviews (self c : κ) (h : l.subviews self = none) :
    (l.showLoadingAdded self).subviews c =
      if c = self then some ⟨l.made, self⟩ else l.subviews c := by
  rw [Overlays.showLoadingAdded, h]
  by_cases hc : c = self
  · simp [hc]
  · simp [hc]

theorem showLoadingAdded_blurView (self : κ) (h : l.subviews self = none) :
    (l.showLoadingAdded self).blurView = some ⟨l.made, self⟩ := by
  rw [Overlays.showLoadingAdded, h]

theorem showLoadingAdded_skipped {self : κ} {view : BlurView κ} (h : l.subviews self = some view) :
    l.showLoadingAdded self = l := by
  rw [Overlays.showLoadingAdded, h]

@[simp] theorem showLoadingAdded_queue (self : κ) : (l.showLoadingAdded self).queue = l.queue := by
  rw [Overlays.showLoadingAdded]
  split <;> rfl

omit [DecidableEq κ] in
theorem hideLoading_eq {view : BlurView κ} (h : l.blurView = some view) :
    l.hideLoading = { l with queue := l.queue + 1 } := by
  rw [Overlays.hideLoading, h]

theorem showLoadingAdded_remaining (h : Consistent l) {self : κ} (hs : l.subviews self = none)
    (c : κ) : (l.showLoadingAdded self).remaining c =
      if c = self then if l.queue = 0 then some ⟨l.made, self⟩ else none else l.subviews c := by
  rw [remaining, showLoadingAdded_subviews self c hs, showLoadingAdded_blurView self hs,
    showLoadingAdded_queue]
  by_cases hc : c = self
  · subst hc
    simp
  · have hne : l.subviews c ≠ some ⟨l.made, self⟩ := fun he ↦ hc (h.superview c _ he).symm
    simp [hc, hne]

theorem hideLoading_remaining {view : BlurView κ} (h : l.blurView = some view) (c : κ) :
    l.hideLoading.remaining c = if l.subviews c = some view then none else l.subviews c := by
  simp [hideLoading_eq h, remaining, h]

omit [DecidableEq κ] in
theorem Consistent.hideLoading (h : Consistent l) : Consistent l.hideLoading := by
  rw [Overlays.hideLoading]
  split
  · exact h
  · next view hview =>
    exact ⟨h.superview, h.latest, fun hnone ↦ by cases hview.symm.trans hnone⟩

theorem removeFromSuperview_subviews (h : Consistent l) (view : BlurView κ) (c : κ) :
    (l.removeFromSuperview view).subviews c =
      if l.subviews c = some view then none else l.subviews c := by
  rw [removeFromSuperview]
  by_cases hc : c = view.superview
  · subst hc
    split_ifs <;> simp
  · have hne : l.subviews c ≠ some view := fun hs ↦ hc (h.superview c view hs).symm
    rw [if_neg hne]
    split_ifs
    · exact Function.update_of_ne hc _ _
    · rfl

theorem block_subviews (h : Consistent l) (c : κ) : l.block.subviews c = l.remaining c := by
  rw [block, remaining]
  split
  · next hq => simp [hq]
  · next hnone _ => simp [(h.unused hnone).1]
  · next queue view hq hview =>
    dsimp only
    rw [removeFromSuperview_subviews h, hq, hview]
    simp

@[simp] theorem block_blurView : l.block.blurView = l.blurView := by
  rw [block]
  split
  · rfl
  · rfl
  · rw [removeFromSuperview]
    split_ifs <;> rfl

theorem block_queue (h : Consistent l) : l.block.queue = l.queue - 1 := by
  rw [block]
  split
  · next hq => rw [hq]
  · next hnone _ => rw [(h.unused hnone).1]
  · next hq _ => simp [hq]

theorem block_idle (h : l.queue = 0) : l.block = l := by
  rw [block, h]

theorem Consistent.block (h : Consistent l) : Consistent l.block where
  superview c view hc := by
    rw [block_subviews h] at hc
    exact h.superview c view (remaining_eq_some hc)
  latest view hview := by
    rw [block_blurView] at hview
    rw [block_subviews h, remaining]
    split_ifs
    · exact .inl rfl
    · exact h.latest view hview
  unused hnone := by
    rw [block_blurView] at hnone
    obtain ⟨hq, hall⟩ := h.unused hnone
    refine ⟨by rw [block_queue h, hq], fun c ↦ ?_⟩
    rw [block_subviews h, remaining_idle hq, hall]

theorem Consistent.step (h : Consistent l) (e : Event κ) : Consistent (l.step e) := by
  cases e with
  | showLoadingAdded self => exact h.showLoadingAdded self
  | hideLoading self => exact h.hideLoading
  | block => exact h.block

theorem block_remaining (h : Consistent l) (c : κ) : l.block.remaining c = l.remaining c := by
  rw [remaining, block_subviews h, block_blurView]
  split_ifs with hc
  · rw [remaining, if_pos]
    have hq : l.queue ≠ 0 := fun hq ↦ hc.1 (by rw [block_queue h, hq])
    refine ⟨hq, ?_⟩
    cases hs : l.remaining c with
    | some view => rw [remaining_eq_some hs, ← hs, hc.2]
    | none =>
      rw [hs] at hc
      exact ((h.unused hc.2.symm).2 c).trans hc.2
  · rfl

/-- A view that is left with no overlay is left with none after a call of each. -/
theorem remaining_showLoadingAdded_hideLoading {self : κ} (h : l.remaining self = none) :
    (l.showLoadingAdded self).hideLoading.remaining self = none := by
  cases hs : l.subviews self with
  | none =>
    rw [hideLoading_eq (showLoadingAdded_blurView self hs), remaining, if_pos]
    simp [showLoadingAdded_subviews self self hs, showLoadingAdded_blurView self hs]
  | some view =>
    have hlatest : l.blurView = some view := by
      rw [remaining] at h
      split_ifs at h with hq
      · rw [← hq.2, hs]
      · cases hs.symm.trans h
    rw [showLoadingAdded_skipped hs, hideLoading_eq hlatest, remaining, if_pos]
    simp [hs, hlatest]

/-- Running the queued blocks leaves what was predicted. -/
theorem drain_subviews (h : Consistent l) (c : κ) : l.drain.subviews c = l.remaining c := by
  have hblocks (n : ℕ) : ∀ {l : Overlays κ}, Consistent l → l.queue = n →
      (Overlays.block^[n] l).subviews c = l.remaining c := by
    induction n with
    | zero => exact fun _ hq ↦ (remaining_idle hq c).symm
    | succ n ih =>
      intro l h hq
      rw [Function.iterate_succ_apply, ih h.block (by rw [block_queue h, hq, Nat.add_sub_cancel]),
        block_remaining h]
  exact hblocks l.queue h rfl

/-- The views that keep an overlay are those whose controller has called
`showLoadingAdded` last. -/
def Agrees (l : Overlays κ) (shown : κ → Bool) : Prop := ∀ c, (l.remaining c).isSome = shown c

theorem agrees_update (self : κ) (isShown : Bool) : l.Agrees (Function.update shown self isShown) ↔
    (l.remaining self).isSome = isShown ∧ ∀ c ≠ self, (l.remaining c).isSome = shown c :=
  Function.forall_update_iff shown fun c b ↦ (l.remaining c).isSome = b

theorem agrees_showLoadingAdded (h : Consistent l) (ha : l.Agrees shown) (self : κ) :
    (l.showLoadingAdded self).Agrees (lastCall shown (.showLoadingAdded self)) ↔
      l.IsSafe (.showLoadingAdded self) := by
  rw [lastCall, agrees_update]
  cases hs : l.subviews self with
  | some view =>
    have hkept : l.IsSafe (.showLoadingAdded self) ↔ (l.remaining self).isSome := by
      by_cases hq : l.queue = 0
      · simp [IsSafe, hq, remaining_idle, hs]
      · rw [IsSafe, or_iff_right hq, ← not_or, ← remaining_queued hq, Option.isSome_iff_ne_none]
    rw [showLoadingAdded_skipped hs, hkept]
    exact and_iff_left fun c _ ↦ ha c
  | none =>
    have hsafe : l.IsSafe (.showLoadingAdded self) ↔ l.queue = 0 := by
      simp [IsSafe, hs]
    rw [hsafe, showLoadingAdded_remaining h hs, if_pos rfl]
    constructor
    · rintro ⟨hself, -⟩
      split_ifs at hself with hq
      · exact hq
      · cases hself
    · intro hq
      refine ⟨by simp [hq], fun c hc ↦ ?_⟩
      rw [showLoadingAdded_remaining h hs, if_neg hc, ← remaining_idle hq]
      exact ha c

/-- A queued removal takes the latest overlay away from whoever has it. -/
theorem agrees_hideLoading_idle (h : Consistent l) (ha : l.Agrees shown) {view : BlurView κ}
    (hb : l.blurView = some view) (hq : l.queue = 0) (self : κ) :
    l.hideLoading.Agrees (Function.update shown self false) ↔
      view.superview = self ∨ l.subviews view.superview = none ∧ l.subviews self = none := by
  rw [agrees_update]
  constructor
  · rintro ⟨hself, hothers⟩
    by_cases hv : view.superview = self
    · exact .inl hv
    · have hkept : l.subviews self ≠ some view := fun he ↦ hv (h.superview self view he)
      rw [hideLoading_remaining hb, if_neg hkept] at hself
      have hlatest := hothers view.superview hv
      rw [hideLoading_remaining hb, ← ha, remaining_idle hq] at hlatest
      obtain hnone | hsome := h.latest view hb
      · exact .inr ⟨hnone, by simpa using hself⟩
      · simp [hsome] at hlatest
  · intro hsafe
    refine ⟨?_, fun c hc ↦ ?_⟩
    · rw [hideLoading_remaining hb]
      obtain rfl | ⟨-, hnone⟩ := hsafe
      · obtain hnone | hsome := h.latest view hb
        · simp [hnone]
        · simp [hsome]
      · simp [hnone]
    · have hkept : l.subviews c ≠ some view := by
        intro hs
        obtain rfl := h.superview c view hs
        obtain hself | ⟨hnone, -⟩ := hsafe
        · exact hc hself
        · cases hnone.symm.trans hs
      rw [hideLoading_remaining hb, if_neg hkept, ← remaining_idle hq]
      exact ha c

theorem agrees_hideLoading_queued (ha : l.Agrees shown) {view : BlurView κ}
    (hb : l.blurView = some view) (hq : l.queue ≠ 0) (self : κ) :
    l.hideLoading.Agrees (Function.update shown self false) ↔ l.remaining self = none := by
  have hsame (c : κ) : l.hideLoading.remaining c = l.remaining c := by
    rw [hideLoading_remaining hb, remaining, hb]
    simp [hq]
  simp only [agrees_update, hsame]
  constructor
  · rintro ⟨hself, -⟩
    simpa using hself
  · intro hnone
    exact ⟨by rw [hnone]; rfl, fun c _ ↦ ha c⟩

theorem agrees_hideLoading (h : Consistent l) (ha : l.Agrees shown) (self : κ) :
    l.hideLoading.Agrees (lastCall shown (.hideLoading self)) ↔ l.IsSafe (.hideLoading self) := by
  rw [lastCall]
  cases hb : l.blurView with
  | none =>
    obtain ⟨hq, hall⟩ := h.unused hb
    have hstep : l.hideLoading = l := by rw [Overlays.hideLoading, hb]
    rw [hstep, agrees_update]
    refine iff_of_true ⟨?_, fun c _ ↦ ha c⟩ (by simp [IsSafe, hq, hb])
    rw [remaining_idle hq, hall]
    rfl
  | some view =>
    by_cases hq : l.queue = 0
    · simp [IsSafe, hq, hb, agrees_hideLoading_idle h ha hb hq]
    · rw [agrees_hideLoading_queued ha hb hq, remaining_queued hq, IsSafe, if_neg hq]

theorem agrees_step (h : Consistent l) (ha : l.Agrees shown) (e : Event κ) :
    (l.step e).Agrees (lastCall shown e) ↔ l.IsSafe e := by
  cases e with
  | showLoadingAdded self => exact agrees_showLoadingAdded h ha self
  | hideLoading self => exact agrees_hideLoading h ha self
  | block => exact iff_of_true (fun c ↦ (congrArg _ (block_remaining h c)).trans (ha c)) trivial

/-- At every point of a run, draining the queue leaves exactly the views whose
controller has called `showLoadingAdded` last with an overlay, if and only if
all calls of the run are safe. -/
theorem overlays_iff (events : List (Event κ)) :
    (∀ pre, pre <+: events → ∀ c, ((run pre).drain.subviews c).isSome = isShown pre c) ↔
      Execution.Along step IsSafe {} events := by
  have hrelated : (∀ pre, pre <+: events → (run pre).Agrees (isShown pre)) ↔
      Execution.Along step IsSafe {} events :=
    Execution.related_iff_along (f := step) (g := lastCall) (R := Agrees) (I := Consistent)
      (fun l e h ↦ h.step e) (fun l shown e h ha ↦ agrees_step h ha e) .empty fun _ ↦ rfl
  rw [← hrelated]
  apply forall₂_congr
  intro pre _
  apply forall_congr'
  intro c
  have hrun : Consistent (run pre) :=
    Execution.invariant (fun l e h ↦ h.step e) Consistent.empty pre
  rw [drain_subviews hrun]

/-- One controller's `hideLoading` removes the overlay of another and leaves its own. -/
theorem overlays_two_screens :
    ¬ ∀ (events : List (Event ℕ)) (c : ℕ),
      ((run events).drain.subviews c).isSome = isShown events c := by
  intro h
  exact absurd (h [.showLoadingAdded 1, .showLoadingAdded 2, .hideLoading 1] 1) (by decide)

end Overlays

end Croesus.ActivityIndicator
