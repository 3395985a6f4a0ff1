import MetricAlarm.Proofs.Condition.RoundTrip
import MetricAlarm.Proofs.Decimal.NotANumber
import MetricAlarm.Proofs.Token.Spacing

/-!
# Comparisons from either side

A threshold may stand on either side of a comparison. What is read is the same condition, with the
metric on the left and the comparator turned round where need be. Main statements:
`MeasuredPhrase.not_thresholdFirst`, by which the two ways to read a comparison do not get mixed up,
and `Condition.compile_mirrored`.
-/

namespace MetricAlarm

open Grammar Token

namespace Grammar

/-- What may stand behind a comparison: the number of periods behind its keyword. -/
inductive PeriodsPhrase : List Token → UInt32 → Prop
  | once : PeriodsPhrase [] 1
  | times {w v : String} {n : UInt32} : Text.sameIgnoringCase w "times" = true → IsInteger v n →
      PeriodsPhrase [.word w, .word v] n

/-- Only a number on its own can be taken for a threshold: behind any other first word of a metric
stands a brace or a parenthesis, and these are no comparators. -/
theorem MeasuredPhrase.not_thresholdFirst {ts us : List Token} {m : Measured}
    (hm : MeasuredPhrase ts m) (hbare : ∀ v, ts = [.word v] → looksNumeric v = false) :
    ¬ ThresholdFirst (ts ++ us) := by
  rintro ⟨w, t, vs, c, hts, hw, hc⟩
  cases hm with
  | call _ _ _ _ =>
    obtain ⟨-, hrest⟩ := List.cons.inj hts
    obtain ⟨rfl, -⟩ := List.cons.inj hrest
    cases hc
  | bare hms =>
    cases hms with
    | bare name =>
      obtain ⟨hname, -⟩ := List.cons.inj hts
      obtain rfl := Token.word.inj hname
      rw [hbare _ rfl] at hw
      cases hw
    | empty name | dimensions name _ _ =>
      obtain ⟨-, hrest⟩ := List.cons.inj hts
      obtain ⟨rfl, -⟩ := List.cons.inj hrest
      cases hc

theorem ComparisonPhrase.condition {ts ns : List Token} {c : Comparison} {n : UInt32}
    (hc : ComparisonPhrase ts c) (hn : PeriodsPhrase ns n) :
    ConditionPhrase (ts ++ ns) (c.condition n) := by
  rw [condition_eq_meaning]
  cases hn with
  | once => simpa using ConditionPhrase.once hc
  | times hw hv => exact .times hc hw hv

end Grammar

namespace Condition

theorem compile_of_phrase {text : String} {ts : List Token} {k : Condition}
    (hk : ConditionPhrase ts k) (htext : ReadsAs text ts) : compile text = .ok k := by
  obtain ⟨ps, hlex, rfl⟩ := htext
  have hread : read text = .ok (.condition k) :=
    read_eq_ok_iff.2 ⟨ps, hlex, .disjunct (.conjunct (.condition hk))⟩
  rw [compile, Expression.compile_of_read hread]
  rfl

/-- A metric expression, other than a number on its own, is compared with a finite threshold. With
the threshold in front and with it behind and the mirrored comparator between, every text of these
tokens compiles, and to one condition. A value breaches it exactly when the comparison as it was
written with the threshold in front holds of the value. It never holds of what is not a number. -/
theorem compile_mirrored {stop : Nat} {ms : List Placed} {m : Measured}
    (hm : measured stop ms = .ok (m, []))
    (hbare : ∀ v, tokens ms = [.word v] → looksNumeric v = false)
    {w : String} {x : Float} (hw : IsThreshold w x) {t t' : Token} {c : Comparator}
    (ht : Relop t c) (ht' : Relop t' c.mirror) {ns : List Token} {n : UInt32}
    (hn : PeriodsPhrase ns n) :
    let front := .word w :: t :: (tokens ms ++ ns)
    let behind := tokens ms ++ t' :: .word w :: ns
    ∃ k : Condition,
      (∀ text, ReadsAs text front ∨ ReadsAs text behind → compile text = .ok k) ∧
      ((∀ s ∈ front ++ behind, IsLexeme s) →
        compile (spaced front) = .ok k ∧ compile (spaced behind) = .ok k) ∧
      k.function = m.function.getD (defaultFunction c.mirror) ∧
      (∀ y, k.breachedBy y = true ↔
        c = .lt ∧ x < y ∨ c = .lte ∧ x ≤ y ∨ c = .gt ∧ x > y ∨ c = .gte ∧ x ≥ y) ∧
      ∀ y, y.isNaN = true → k.breachedBy y = false := by
  intro front behind
  have hphrase : MeasuredPhrase (tokens ms) m := by
    obtain ⟨us, rfl, hus⟩ := takes_measured hm
    rwa [List.append_nil]
  let k : Condition := (⟨m, c.mirror, x⟩ : Comparison).condition n
  have hfront : ConditionPhrase front k := (ComparisonPhrase.reversed hw ht hphrase).condition hn
  have hbehind : ConditionPhrase behind k := by
    have hdirect := ComparisonPhrase.direct hphrase ht' hw (hphrase.not_thresholdFirst hbare)
    simpa [behind] using hdirect.condition hn
  have hbreached (y : Float) : k.breachedBy y = c.holds x y := c.holds_mirror y x
  refine ⟨k, ?_, fun hall => ?_, rfl, fun y => ?_, fun y hy => ?_⟩
  · rintro text (h | h)
    · exact compile_of_phrase hfront h
    · exact compile_of_phrase hbehind h
  · obtain ⟨hleft, hright⟩ := List.forall_mem_append.1 hall
    exact ⟨compile_of_phrase hfront (readsAs_spaced hleft),
      compile_of_phrase hbehind (readsAs_spaced hright)⟩
  · rw [hbreached, Comparator.holds_iff]
  · rw [hbreached, Decimal.holds_of_isNaN c (.inr hy)]

/-- A name that looks like a number is a name where dimensions follow it. -/
theorem compile_mirrored_numeric_name :
    ∃ k : Condition,
      compile "90.5 lTe 5 \x7b host = a \x7d times 3" = .ok k ∧
      compile "5 \x7b host = a \x7d >= 90.5 times 3" = .ok k ∧
      k.function = .max ∧ (∀ y, k.breachedBy y = true ↔ 90.5 ≤ y) ∧
      k.breachedBy 90.5 = true ∧ k.breachedBy 90 = false ∧ k.breachedBy (0 / 0) = false := by
  have hphrase : MetricPhrase (.word "5" :: .leftBrace ::
      ((wordTokens ["host"] ++ .equals :: wordTokens ["a"]) ++ [.rightBrace])) _ :=
    .dimensions "5" (.one (.words (by decide) (by decide))) (by decide)
  let ms : List Placed := [⟨.word "5", 0⟩, ⟨.leftBrace, 1⟩, ⟨.word "host", 2⟩, ⟨.equals, 6⟩,
    ⟨.word "a", 7⟩, ⟨.rightBrace, 8⟩]
  have hm : measured 9 ms = _ := @finds_measured 9 ms [] _ (.bare hphrase) nofun
  have hw : IsThreshold "90.5" 90.5 := ⟨by decide +kernel, by decide +kernel, by decide +kernel⟩
  have hn : PeriodsPhrase [.word "times", .word "3"] 3 :=
    .times (by decide) ⟨by decide, List.all_eq_true.1 (by decide), by decide⟩
  have hbare : ∀ v, tokens ms = [.word v] → looksNumeric v = false := by
    intro v hv
    simp [ms] at hv
  obtain ⟨k, -, hspaced, hfunction, hbreached, hnan⟩ := compile_mirrored hm hbare hw
    (show Relop (.word "lTe") .lte from .word (Or.inr (by decide))) .greaterEqual hn
  obtain ⟨hfront, hbehind⟩ := hspaced (by
    simp only [ms, tokens_cons, tokens_nil, List.forall_mem_append, List.forall_mem_cons,
      List.not_mem_nil, IsEmpty.forall_iff, implies_true, IsLexeme]
    decide +kernel)
  have hvalues (y : Float) : k.breachedBy y = true ↔ 90.5 ≤ y := by simp [hbreached y]
  refine ⟨k, ?_, ?_, hfunction, hvalues, ?_, ?_, ?_⟩
  · exact (congrArg compile (by decide +kernel)).trans hfront
  · exact (congrArg compile (by decide +kernel)).trans hbehind
  · exact (hvalues 90.5).2 (by decide +kernel)
  · rw [Bool.eq_false_iff, Ne, hvalues]
    decide +kernel
  · exact hnan (0 / 0) (by decide +kernel)

end Condition

end MetricAlarm
