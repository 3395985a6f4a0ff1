import MetricAlarm.Proofs.Alarm.Run

/-!
# Which views are judged under dense polling

A sub-alarm that is evaluated at every time judges a view at the first moment at which it may, and
then moves on by the same number of slots each time, the stride. With a delay of two slot widths or
more the stride is more than one slot, and a view that has fewer slots leaves some out. Main
statements: `Sound.timely_run`, no evaluation comes later than the first moment, and `polled_views`,
which views are judged and when they leave nothing out.
-/

namespace MetricAlarm.SubAlarm

/-! ## Dense polling -/

/-- The evaluations of a run come at consecutive times from `t` on, with samples in between. Each
finds a window that does not end before zero and has room for `n` slots. -/
def Polled (n : Nat) (a : SubAlarm) (t : Int) : List Call → Prop
  | [] => True
  | .sample v x :: calls => Polled n (a.after (.sample v x)) t calls
  | .evaluate now :: calls =>
    (now = t ∧ Timestamp.InRange now ∧ 0 ≤ a.window.windowEnd ∧ a.window.HasRoom n) ∧
      Polled n (a.evaluate now) (t + 1) calls

instance decidablePolled (n : Nat) : (a : SubAlarm) → (t : Int) → (calls : List Call) →
    Decidable (Polled n a t calls)
  | _, _, [] => .isTrue trivial
  | a, t, .sample v x :: calls => decidablePolled n (a.after (.sample v x)) t calls
  | a, t, .evaluate now :: calls =>
    have := decidablePolled n (a.evaluate now) (t + 1) calls
    inferInstanceAs (Decidable (_ ∧ _))

/-- An evaluation that judges a view: when it comes, and where the view ends. -/
structure Judgement where
  time : Int
  viewEnd : Int
  deriving DecidableEq, Repr

def judges (a : SubAlarm) : Call → List Judgement
  | .sample _ _ => []
  | .evaluate now => if a.isDue now then [⟨now, a.window.viewEnd⟩] else []

/-- The judgements of a run, in their order. -/
def judgements (a : SubAlarm) : List Call → List Judgement
  | [] => []
  | c :: calls => a.judges c ++ (a.after c).judgements calls

/-- The slot from `start` on lies in the view that is judged. -/
def Judgement.Covers (width : Int) (periods : Nat) (x : Judgement) (start : Int) : Prop :=
  x.viewEnd - periods * width ≤ start ∧ start + width ≤ x.viewEnd

/-! ## Single evaluations -/

/-- An evaluation that does not come later than the first moment when the view may be judged, and
finds room for `n` slots. -/
structure Timely (n : Nat) (a : SubAlarm) (now : Int) : Prop where
  le_first : now ≤ a.window.viewEnd + a.minDelay + 1
  inRange : Timestamp.InRange now
  windowEnd_nonneg : 0 ≤ a.window.windowEnd
  hasRoom : a.window.HasRoom n

variable {c : Condition} {s : Settings} {a : SubAlarm}

theorem Sound.isDue_iff (h : Sound c s a) (hdelay : 0 ≤ s.minDelay) {now : Int}
    (hnow : Timestamp.InRange now) :
    a.isDue now = true ↔ a.window.viewEnd + s.minDelay < now := by
  rw [isDue, h.minDelay_eq]
  exact Window.isDue_iff hdelay (h.regular.least_le_viewEnd h.bounded) hnow

/-- The slots by which a sub-alarm moves on from a view that it judges at the first moment. -/
def stride (c : Condition) (s : Settings) : Nat :=
  Window.stride (slotWidth c s) s.minDelay

theorem stride_pos (c : Condition) (s : Settings) : 0 < stride c s := Window.stride_pos _ _

theorem Sound.isDue_iff_of_timely (h : Sound c s a) (hdelay : 0 ≤ s.minDelay) {n : Nat} {now : Int}
    (ht : Timely n a now) :
    a.isDue now = true ↔ now = a.window.viewEnd + s.minDelay + 1 := by
  have hle := ht.le_first
  rw [h.minDelay_eq] at hle
  rw [h.isDue_iff hdelay ht.inRange]
  omega

/-- A judgement at the first moment moves the window by the stride. -/
theorem Sound.evaluate_of_timely (h : Sound c s a) (hdelay : 0 ≤ s.minDelay) {now : Int}
    (ht : Timely (stride c s) a now) (hdue : a.isDue now = true) :
    a.evaluate now = { a with
      state := verdict a.condition a.window.viewValues
      window := a.window.advance (stride c s) } := by
  have hfirst := (h.isDue_iff_of_timely hdelay ht).1 hdue
  have hinRange := ht.inRange
  have hroom := ht.hasRoom
  rw [stride, ← h.slotWidth_eq] at hroom
  rw [hfirst] at hinRange
  have hmoved := h.regular.slotsMoved_first h.bounded ht.windowEnd_nonneg hdelay hinRange hroom
  rw [evaluate, if_pos hdue, Window.slideTo_eq_advance_slotsMoved, h.minDelay_eq, hfirst, hmoved,
    h.slotWidth_eq]
  rfl

/-! ## Runs -/

/-- The next evaluation is in time again: the window has moved on, by one slot at least, or the first
moment is still to come. -/
theorem Sound.lt_first_evaluate (h : Sound c s a) (hdelay : 0 ≤ s.minDelay) {now : Int}
    (ht : Timely (stride c s) a now) :
    now < (a.evaluate now).window.viewEnd + s.minDelay + 1 := by
  have hle := ht.le_first
  rw [h.minDelay_eq] at hle
  cases hdue : a.isDue now with
  | false =>
    have hnot := (h.isDue_iff_of_timely hdelay ht).not.1 (by rw [hdue]; decide)
    rw [evaluate_of_not_due hdue]
    omega
  | true =>
    have hone : 1 * a.window.slotWidth ≤ (stride c s : Int) * a.window.slotWidth :=
      Int.mul_le_mul_of_nonneg_right (Int.ofNat_le.2 (stride_pos c s))
        (Int.le_of_lt h.regular.width_pos)
    have hwidth := h.regular.width_pos
    rw [h.evaluate_of_timely hdelay ht hdue]
    dsimp only
    rw [(h.regular.movedBy_advance _).viewEnd_eq]
    omega

theorem viewEnd_after_sample (a : SubAlarm) (v : Float) (x : Int) :
    (a.after (.sample v x)).window.viewEnd = a.window.viewEnd := by
  obtain ⟨slots, hslots⟩ := a.after_sample_eq v x
  rw [hslots]

/-- Under dense polling no evaluation comes later than the first moment when the view may be
judged. -/
theorem Sound.timely_run (h : Sound c s a) (hdelay : 0 ≤ s.minDelay) {t : Int}
    (hle : t ≤ a.window.viewEnd + s.minDelay + 1) {before later : List Call} {now : Int}
    (hp : Polled (stride c s) a t (before ++ .evaluate now :: later)) :
    Timely (stride c s) (a.run before) now := by
  induction before generalizing a t with
  | nil =>
    obtain ⟨⟨rfl, hnow, hend, hroom⟩, -⟩ := hp
    rw [← h.minDelay_eq] at hle
    exact ⟨hle, hnow, hend, hroom⟩
  | cons call before ih =>
    cases call with
    | sample v x =>
      rw [← viewEnd_after_sample a v x] at hle
      exact ih (h.after _) hle hp
    | evaluate first =>
      obtain ⟨⟨rfl, hnow, hend, hroom⟩, hp⟩ := hp
      rw [← h.minDelay_eq] at hle
      exact ih (h.after (.evaluate first)) (h.lt_first_evaluate hdelay ⟨hle, hnow, hend, hroom⟩) hp

/-- The `i`-th of the judgements that follow one another by the stride, beginning with the view that
ends at `viewEnd`. -/
def judgementAt (c : Condition) (s : Settings) (viewEnd : Int) (i : Nat) : Judgement :=
  let moved := ((i * stride c s : Nat) : Int) * slotWidth c s
  ⟨viewEnd + moved + s.minDelay + 1, viewEnd + moved⟩

theorem judgementAt_zero (c : Condition) (s : Settings) (viewEnd : Int) :
    judgementAt c s viewEnd 0 = ⟨viewEnd + s.minDelay + 1, viewEnd⟩ := by
  simp [judgementAt]

theorem judgementAt_succ (c : Condition) (s : Settings) (viewEnd : Int) (i : Nat) :
    judgementAt c s viewEnd (i + 1) =
      judgementAt c s (viewEnd + stride c s * slotWidth c s) i := by
  simp only [judgementAt, Nat.add_mul, Nat.one_mul, Int.natCast_add, Int.add_mul,
    Judgement.mk.injEq]
  omega

theorem Sound.judgements_eq (h : Sound c s a) (hdelay : 0 ≤ s.minDelay) {t : Int}
    (hle : t ≤ a.window.viewEnd + s.minDelay + 1) {calls : List Call}
    (hp : Polled (stride c s) a t calls) :
    ∃ n, a.judgements calls = (List.range n).map (judgementAt c s a.window.viewEnd) := by
  induction calls generalizing a t with
  | nil => exact ⟨0, rfl⟩
  | cons call calls ih =>
    cases call with
    | sample v x =>
      rw [← viewEnd_after_sample a v x] at hle ⊢
      exact ih (h.after _) hle hp
    | evaluate now =>
      obtain ⟨⟨rfl, hnow, hend, hroom⟩, hp⟩ := hp
      rw [← h.minDelay_eq] at hle
      have ht : Timely (stride c s) a now := ⟨hle, hnow, hend, hroom⟩
      obtain ⟨n, hn⟩ := ih (h.after (.evaluate now)) (h.lt_first_evaluate hdelay ht) hp
      rw [judgements, judges, hn]
      cases hdue : a.isDue now with
      | false =>
        refine ⟨n, ?_⟩
        rw [SubAlarm.after, evaluate_of_not_due hdue]
        rfl
      | true =>
        refine ⟨n + 1, ?_⟩
        have hfirst := (h.isDue_iff_of_timely hdelay ht).1 hdue
        have hmoved : (a.after (.evaluate now)).window.viewEnd = a.window.viewEnd +
            stride c s * slotWidth c s := by
          rw [SubAlarm.after, h.evaluate_of_timely hdelay ht hdue, ← h.slotWidth_eq]
          exact (h.regular.movedBy_advance _).viewEnd_eq
        rw [hmoved, List.range_succ_eq_map, List.map_cons, List.map_map, judgementAt_zero, ← hfirst]
        refine congrArg _ (List.map_congr_left fun i _ => ?_)
        exact (judgementAt_succ c s _ i).symm

/-! ## Slots that are left out -/

/-- Stretches of `p` slots that end at multiples of `m` leave none out exactly when they are at least
as long as they are apart. -/
theorem forall_exists_stretch_iff {m n p : Nat} (hm : 0 < m) (hn : 2 ≤ n) :
    (∀ k, k + 1 ≤ (n - 1) * m → ∃ i < n, i * m ≤ k + p ∧ k + 1 ≤ i * m) ↔ m ≤ p := by
  constructor
  · intro h
    have hfirst : 0 + 1 ≤ (n - 1) * m := Nat.mul_pos (by omega) hm
    obtain ⟨i, -, hi, hpos⟩ := h 0 hfirst
    have hone : 0 < i := Nat.pos_of_mul_pos_right (show 0 < i * m by omega)
    have hle : 1 * m ≤ i * m := Nat.mul_le_mul_right m hone
    omega
  · intro h k hk
    have hdiv := Nat.div_add_mod' k m
    have hmod := Nat.mod_lt k hm
    refine ⟨k / m + 1, ?_, ?_, ?_⟩
    · have : k / m < n - 1 := (Nat.div_lt_iff_lt_mul hm).2 hk
      omega
    · rw [Nat.add_mul]
      omega
    · rw [Nat.add_mul]
      omega

theorem slots_le_iff {width : Int} (hw : 0 < width) (m n : Nat) :
    (m : Int) * width ≤ n * width ↔ m ≤ n := by
  constructor
  · intro h
    exact Int.ofNat_le.1 (Int.le_of_mul_le_mul_right h hw)
  · intro h
    exact Int.mul_le_mul_of_nonneg_right (Int.ofNat_le.2 h) (Int.le_of_lt hw)

theorem covers_judgementAt_iff (hw : 0 < slotWidth c s) (viewEnd : Int) (i k p : Nat) :
    (judgementAt c s viewEnd i).Covers (slotWidth c s) p (viewEnd + k * slotWidth c s) ↔
      i * stride c s ≤ k + p ∧ k + 1 ≤ i * stride c s := by
  rw [← slots_le_iff hw (i * stride c s), ← slots_le_iff hw (k + 1), Judgement.Covers, judgementAt]
  simp only [Int.natCast_add, Int.add_mul]
  omega

/-- Under dense polling a view is judged exactly at the first moment when it may be, the window then
moves on by the stride, and so the ends of the judged views lie apart by the stride. Between the
first and the last of them no slot is left out if and only if a view has as many slots as that. -/
theorem polled_views {viewEnd : Int} (h : create c s viewEnd = .ok a) (hdelay : 0 ≤ s.minDelay)
    (earlier calls : List Call) {t : Int}
    (hle : t ≤ (a.run earlier).window.viewEnd + s.minDelay)
    (hp : Polled (stride c s) (a.run earlier) t calls) :
    let start := a.run earlier
    let views := start.judgements calls
    (∀ before now later, calls = before ++ .evaluate now :: later →
      let x := start.run before
      (x.isDue now = true ↔ now = x.window.viewEnd + s.minDelay + 1) ∧
      (x.isDue now = true →
        x.evaluate now = { x with
          state := verdict c x.window.viewValues
          window := x.window.advance (stride c s) } ∧
        (x.evaluate now).window.viewEnd = x.window.viewEnd + stride c s * slotWidth c s) ∧
      (x.isDue now = false → x.evaluate now = x)) ∧
    views = (List.range views.length).map (judgementAt c s start.window.viewEnd) ∧
    ∀ last ∈ views.getLast?, 2 ≤ views.length →
      ((∀ k : Nat, start.window.viewEnd + k * slotWidth c s + slotWidth c s ≤ last.viewEnd →
          ∃ x ∈ views, x.Covers (slotWidth c s) c.periods.toNat
            (start.window.viewEnd + k * slotWidth c s)) ↔
        stride c s ≤ c.periods.toNat) := by
  have hstart := sound_run h earlier
  have hle : t ≤ (a.run earlier).window.viewEnd + s.minDelay + 1 := by omega
  have hw : 0 < slotWidth c s := hstart.slotWidth_eq ▸ hstart.regular.width_pos
  obtain ⟨n, hn⟩ := hstart.judgements_eq hdelay hle hp
  refine ⟨?_, ?_, ?_⟩
  · rintro before now later rfl
    have hx := hstart.run before
    have ht := hstart.timely_run hdelay hle hp
    refine ⟨hx.isDue_iff_of_timely hdelay ht, fun hdue => ?_, evaluate_of_not_due⟩
    rw [hx.evaluate_of_timely hdelay ht hdue, hx.condition_eq]
    refine ⟨rfl, ?_⟩
    rw [← hx.slotWidth_eq]
    exact (hx.regular.movedBy_advance _).viewEnd_eq
  · rw [hn, List.length_map, List.length_range]
  · intro last hlast hlength
    rw [hn, List.length_map, List.length_range] at hlength
    have hends : last.viewEnd = (a.run earlier).window.viewEnd +
        (((n - 1) * stride c s : Nat) : Int) * slotWidth c s := by
      rw [hn, List.getLast?_map, List.getLast?_range, if_neg (by omega)] at hlast
      obtain rfl := Option.some.inj hlast
      rfl
    rw [← forall_exists_stretch_iff (stride_pos c s) hlength]
    refine forall_congr' fun k => ?_
    have hbetween : (a.run earlier).window.viewEnd + k * slotWidth c s + slotWidth c s ≤
        last.viewEnd ↔ k + 1 ≤ (n - 1) * stride c s := by
      rw [hends, ← slots_le_iff hw, Int.natCast_add, Int.add_mul]
      omega
    simp only [hbetween, hn, List.mem_map, List.mem_range, exists_exists_and_eq_and,
      covers_judgementAt_iff hw]

/-- A delay of five and slots of two: the views move on by three slots, of which each has two. -/
theorem polled_views_gap :
    let c : Condition := ⟨.max, .named "cpu", .gt, 90, 2, 2, false⟩
    let s : Settings := ⟨2, 5, .absolute, "info"⟩
    let calls : List Call := [.evaluate 104, .sample 95 101, .evaluate 105, .evaluate 106,
      .sample 20 100, .evaluate 107, .evaluate 108, .evaluate 109, .evaluate 110, .evaluate 111,
      .evaluate 112]
    ∃ a, create c s 100 = .ok a ∧ stride c s = 3 ∧
      a.judgements calls = [⟨106, 100⟩, ⟨112, 106⟩] ∧
      ¬ ∀ k : Nat, 100 + k * slotWidth c s + slotWidth c s ≤ 106 →
        ∃ x ∈ a.judgements calls, x.Covers (slotWidth c s) 2 (100 + k * slotWidth c s) := by
  intro c s calls
  have h : create ⟨.max, .named "cpu", .gt, 90, 2, 2, false⟩ ⟨2, 5, .absolute, "info"⟩ 100 =
      .ok _ := rfl
  have hviews := (polled_views h (by decide) [] calls (by decide +kernel)
    (show Polled 3 _ 104 calls by decide +kernel)).2.2
  refine ⟨_, h, by decide +kernel, by decide +kernel, fun hall => ?_⟩
  have hstride := (hviews ⟨112, 106⟩ (by decide +kernel) (by decide +kernel)).1 hall
  exact absurd hstride (by decide +kernel)

end MetricAlarm.SubAlarm
