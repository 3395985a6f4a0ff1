import MetricAlarm.Metric.Basic

/-!
# Selection orders metrics

A metric selects those of its name that have its dimensions, and possibly more. So selection is
inclusion of dimension maps for each name, the widest metric first. Main statements:
`selects_iff_extends`, `selects_refl`, `selects_trans` and `selects_antisymm`.
-/

namespace MetricAlarm

namespace Dimensions

variable {d e f : Dimensions} {name value : String}

/-- Each name stands once, so that no entry hides another. -/
theorem get?_eq_some_iff : d.get? name = some value ↔ (name, value) ∈ d.entries := by
  rw [get?, List.lookup_eq_some_iff]
  constructor
  · rintro ⟨before, after, heq, -⟩
    simp [heq]
  · intro hmem
    obtain ⟨before, after, heq⟩ := List.append_of_mem hmem
    refine ⟨before, after, heq, fun x hx => ?_⟩
    -- the entries in front of it have smaller names
    have hsorted := d.sorted
    rw [heq] at hsorted
    have hlt : x.1 < name := (List.pairwise_append.1 hsorted).2.2 x hx _ List.mem_cons_self
    exact bne_iff_ne.2 fun hname => String.lt_irrefl name (hname ▸ hlt)

theorem nodup_entries (d : Dimensions) : d.entries.Nodup :=
  List.Pairwise.of_map Prod.fst (fun _ _ hname heq => hname (congrArg Prod.fst heq)) d.nodup_names

/-- The order of the entries is that of their names, so a map is the set of its entries. -/
theorem eq_of_mem_iff (h : ∀ x, x ∈ d.entries ↔ x ∈ e.entries) : d = e := by
  have hperm : d.entries.Perm e.entries :=
    (List.perm_ext_iff_of_nodup d.nodup_entries e.nodup_entries).2 h
  have hentries : d.entries = e.entries :=
    hperm.eq_of_pairwise (fun _ _ _ _ hxy hyx => absurd hyx (String.lt_asymm hxy)) d.sorted e.sorted
  cases d
  cases e
  cases hentries
  rfl

/-- Every name of `d` has its value in `e` too. -/
def Extends (e d : Dimensions) : Prop :=
  ∀ name value, d.get? name = some value → e.get? name = some value

theorem extends_refl (d : Dimensions) : d.Extends d := fun _ _ h => h

theorem Extends.trans (h : f.Extends e) (h' : e.Extends d) : f.Extends d :=
  fun name value hd => h name value (h' name value hd)

theorem Extends.antisymm (h : e.Extends d) (h' : d.Extends e) : d = e := by
  refine eq_of_mem_iff fun x => ?_
  rw [← get?_eq_some_iff, ← get?_eq_some_iff]
  exact ⟨h x.1 x.2, h' x.1 x.2⟩

end Dimensions

namespace Metric

variable {a b c : Metric}

theorem selects_iff_extends (a b : Metric) :
    a.selects b = true ↔ a.name = b.name ∧ b.dimensions.Extends a.dimensions := by
  rw [selects_iff]
  refine and_congr_right fun _ => ⟨fun h name value hget => ?_, fun h x hx => ?_⟩
  · exact h (name, value) (Dimensions.get?_eq_some_iff.1 hget)
  · exact h x.1 x.2 (Dimensions.get?_eq_some_iff.2 hx)

theorem selects_refl (a : Metric) : a.selects a = true :=
  (selects_iff_extends a a).2 ⟨rfl, a.dimensions.extends_refl⟩

theorem selects_trans (h : a.selects b = true) (h' : b.selects c = true) :
    a.selects c = true := by
  obtain ⟨hname, hdims⟩ := (selects_iff_extends a b).1 h
  obtain ⟨hname', hdims'⟩ := (selects_iff_extends b c).1 h'
  exact (selects_iff_extends a c).2 ⟨hname.trans hname', hdims'.trans hdims⟩

theorem selects_antisymm (h : a.selects b = true) (h' : b.selects a = true) : a = b := by
  obtain ⟨hname, hdims⟩ := (selects_iff_extends a b).1 h
  obtain ⟨-, hdims'⟩ := (selects_iff_extends b a).1 h'
  have hsame : a.dimensions = b.dimensions := hdims.antisymm hdims'
  cases a
  cases b
  cases hname
  cases hsame
  rfl

end Metric

end MetricAlarm
