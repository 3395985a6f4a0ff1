import MetricAlarm.Proofs.Alarm.Independence
import MetricAlarm.Proofs.Metric.Selection

/-!
# Routing follows selection

Selection orders the metrics of the conditions, and the samples that a monitor hands to its
sub-alarms are ordered with them: the sub-alarm of a wider metric is handed all that the one of a
narrower metric is handed, in the same order. Main statement: `Monitor.routing_ordered`.
-/

namespace MetricAlarm

namespace Monitor

variable {c d : Condition}

theorem share_sample {metric : Metric} (h : c.metric.selects metric = true) (value : Float)
    (timestamp : Int) :
    (Call.sample metric value timestamp).share c = some (.sample value timestamp) :=
  if_pos h

/-- What concerns a condition concerns a wider one, and is the same for it. -/
theorem share_of_selects (h : c.metric.selects d.metric = true) {call : Call} {x : SubAlarm.Call}
    (hx : call.share d = some x) : call.share c = some x := by
  cases call with
  | evaluate now => exact hx
  | sample metric value timestamp =>
    simp only [Call.share, Option.ite_none_right_eq_some] at hx ⊢
    exact ⟨Metric.selects_trans h hx.1, hx.2⟩

/-- So a run leaves the wider one the whole share of the narrower one, and in the same order. -/
theorem shares_sublist (h : c.metric.selects d.metric = true) (calls : List Call) :
    (calls.filterMap (Call.share d)).Sublist (calls.filterMap (Call.share c)) := by
  induction calls with
  | nil => exact .slnil
  | cons call calls ih =>
    cases hd : call.share d with
    | some x =>
      rw [List.filterMap_cons_some hd, List.filterMap_cons_some (share_of_selects h hd)]
      exact ih.cons_cons x
    | none =>
      rw [List.filterMap_cons_none hd]
      cases hc : call.share c with
      | some x =>
        rw [List.filterMap_cons_some hc]
        exact ih.cons x
      | none =>
        rw [List.filterMap_cons_none hc]
        exact ih

/-- Selection is a partial order on metrics: equality of names and inclusion of dimension maps. The
sub-alarm at each place of a monitor runs on its share of the calls. A sample in the share of a
sub-alarm is in that of every sub-alarm whose metric selects the metric of the first, and the shares
keep the order of the calls; a sample of a sub-alarm's own metric is always in its share. -/
theorem routing_ordered :
    (∀ a : Metric, a.selects a = true) ∧
    (∀ a b c : Metric, a.selects b = true → b.selects c = true → a.selects c = true) ∧
    (∀ a b : Metric, a.selects b = true → b.selects a = true → a = b) ∧
    (∀ a b : Metric, a.selects b = true ↔
      a.name = b.name ∧ b.dimensions.Extends a.dimensions) ∧
    ∀ (m : Monitor) (calls : List Call) (i : Nat) (a : SubAlarm), m.subAlarms[i]? = some a →
      (m.run calls).subAlarms[i]? = some (a.run (calls.filterMap (Call.share a.condition))) ∧
      (∀ b ∈ m.subAlarms, a.condition.metric.selects b.condition.metric = true →
        (∀ metric value timestamp,
          (Call.sample metric value timestamp).share b.condition = some (.sample value timestamp) →
          (Call.sample metric value timestamp).share a.condition = some (.sample value timestamp)) ∧
        (calls.filterMap (Call.share b.condition)).Sublist
          (calls.filterMap (Call.share a.condition))) ∧
      ∀ value timestamp, (Call.sample a.condition.metric value timestamp).share a.condition =
        some (.sample value timestamp) := by
  refine ⟨Metric.selects_refl, fun _ _ _ => Metric.selects_trans,
    fun _ _ => Metric.selects_antisymm, Metric.selects_iff_extends, fun m calls i a ha => ?_⟩
  refine ⟨?_, fun b _ hab => ⟨fun _ _ _ => share_of_selects hab, shares_sublist hab calls⟩,
    share_sample a.condition.metric.selects_refl⟩
  rw [subAlarms_run, List.getElem?_map, ha, Option.map_some]

/-- Two conditions on one metric, the second for one host only. A sample of a disk of that host goes
to both, whichever of its dimensions is written first; one of another host goes to the first. -/
theorem routing_ordered_nested :
    let cpu : Metric := .named "cpu"
    let host : Metric := cpu.withDimension "host" "a"
    let other : Metric := cpu.withDimension "host" "b"
    let disk : Metric := host.withDimension "disk" "1"
    let turned : Metric := (cpu.withDimension "disk" "1").withDimension "host" "a"
    let wide : Condition := ⟨.avg, cpu, .gt, 50, 60, 2, false⟩
    let narrow : Condition := ⟨.max, host, .gt, 90, 60, 1, false⟩
    let e : Expression := ⟨"nested", [.condition wide, .condition narrow, .join .or]⟩
    let calls : List Call := [.sample disk 95 30, .sample other 20 45, .evaluate 75]
    cpu.selects host = true ∧ host.selects disk = true ∧ cpu.selects disk = true ∧
    disk.selects turned = true ∧ turned.selects disk = true ∧ disk = turned ∧
    ∃ m a b, create e .low .default 60 = .ok m ∧ m.subAlarms = [a, b] ∧
      (m.run calls).subAlarms[0]? = some (a.run [.sample 95 30, .sample 20 45, .evaluate 75]) ∧
      (m.run calls).subAlarms[1]? = some (b.run [.sample 95 30, .evaluate 75]) ∧
      (Call.sample disk 95 30).share narrow = some (.sample 95 30) ∧
      (Call.sample disk 95 30).share wide = some (.sample 95 30) ∧
      (calls.filterMap (Call.share narrow)).Sublist (calls.filterMap (Call.share wide)) ∧
      (Call.sample host 95 30).share narrow = some (.sample 95 30) := by
  intro cpu host other disk turned wide narrow e calls
  obtain ⟨-, htrans, hantisymm, -, hroutes⟩ := routing_ordered
  have hhost : cpu.selects host = true := by decide +kernel
  have hdisk : host.selects disk = true := by decide +kernel
  have hturned : disk.selects turned = true := by decide +kernel
  have hback : turned.selects disk = true := by decide +kernel
  have hother : cpu.selects other = true ∧ host.selects other = false := by decide +kernel
  refine ⟨hhost, hdisk, htrans cpu host disk hhost hdisk, hturned, hback,
    hantisymm disk turned hturned hback, ?_⟩
  have hok : (create e .low .default 60).isOk = true := by decide +kernel
  cases hm : create e .low .default 60 with
  | error fault => rw [hm] at hok; cases hok
  | ok m =>
    have hconditions : m.subAlarms.map (·.condition) = [wide, narrow] := (create_eq_ok hm).2.2.1
    obtain ⟨a, as, has, ha, hrest⟩ := List.map_eq_cons_iff.1 hconditions
    obtain ⟨b, bs, hbs, hb, hnil⟩ := List.map_eq_cons_iff.1 hrest
    have hsub : m.subAlarms = [a, b] := by rw [has, hbs, List.map_eq_nil_iff.1 hnil]
    obtain ⟨hfirst, hwider, -⟩ := hroutes m calls 0 a (by rw [hsub]; rfl)
    obtain ⟨hsecond, -, hown⟩ := hroutes m calls 1 b (by rw [hsub]; rfl)
    obtain ⟨hboth, hsublist⟩ := hwider b (by simp [hsub]) (by rw [ha, hb]; exact hhost)
    rw [ha] at hfirst hboth hsublist
    rw [hb] at hsecond hboth hsublist hown
    have hshare : (Call.sample disk 95 30).share narrow = some (.sample 95 30) :=
      share_sample hdisk 95 30
    refine ⟨m, a, b, rfl, hsub, ?_, ?_, hshare, hboth disk 95 30 hshare, hsublist, hown 95 30⟩
    · simpa [calls, Call.share, wide, htrans cpu host disk hhost hdisk, hother.1] using hfirst
    · simpa [calls, Call.share, narrow, hdisk, hother.2] using hsecond

end Monitor

end MetricAlarm
