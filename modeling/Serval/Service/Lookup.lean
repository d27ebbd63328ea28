import Serval.Service.Isolation

/-!
# Looking a service up

`service_find_type` finds the longest prefix with a rule of the kind. An exact
match is a lookup for rules that forward, whose result is thrown away when the
prefix is shorter than the one asked for.
-/

namespace Serval

open Serval.Support

/-- In every reachable table a lookup gives the entry of the longest prefix that
the rule matches, and an exact one only that of the whole key. -/
theorem serviceTableFind_longest {table : ServiceTable} (reachable : Reachable table)
    (srvid : ServiceId) {bits : Nat} (short : bits ≤ 256) (rule : RuleMatch) :
    ∃ found, serviceTableFind table (some srvid) bits rule = .ok found ∧
      ∀ se, found = some se ↔ ∃ s, entryAt table s = some se ∧
        IsLongest (fun t => (entryAt table t).isSome ∧ MatchesAt table.tree (some rule.func) t)
          (prefixOf srvid bits) s ∧ (rule = .matchExact → s.length = bits) := by
  obtain ⟨L, m, rep⟩ := reachable.represents
  obtain ⟨result, run, isLongest, _⟩ :=
    rep.tree.findsLongest.finds srvid.sid bits (some rule.func) (bits_le_sid srvid short)
  simp only [rep.entryAt_eq, Finmap.lookup_isSome, prefixOf]
  cases result with
  | none =>
    refine ⟨none, by simp [serviceTableFind, run], fun se => iff_of_false nofun ?_⟩
    rintro ⟨s, _, longest, _⟩
    obtain ⟨p, _, found, _⟩ := longest.here.2
    cases (isLongest p).mpr ⟨s, longest, found⟩
  | some p =>
    obtain ⟨s, longest, found⟩ := (isLongest p).mp rfl
    obtain ⟨node, live, ok⟩ := rep.tree.node s p ((rep.tree.nodeAt_eq s).symm.trans found)
    obtain ⟨se, held⟩ := Finmap.mem_iff.mp longest.here.1
    have only (se' : ServiceEntry) : (∃ t, m.lookup t = some se' ∧ IsLongest
        (fun t => t ∈ m ∧ MatchesAt table.tree (some rule.func) t) (takeBits srvid.sid bits) t ∧
        (rule = .matchExact → t.length = bits)) ↔
        se = se' ∧ (rule = .matchExact → s.length = bits) := by
      constructor
      · rintro ⟨t, heldThere, other, exact_bits⟩
        cases longest.unique other
        exact ⟨Option.some.inj (held.symm.trans heldThere), exact_bits⟩
      · rintro ⟨rfl, exact_bits⟩
        exact ⟨s, held, longest, exact_bits⟩
    refine ⟨if rule ≠ .matchExact ∨ s.length = bits then some se else none, ?_, fun se' => ?_⟩
    · simp only [serviceTableFind, run, ok_bind, Heap.read_of_live live, getService, ok.priv, held,
        ok.depth, pure_eq_ok]
      split <;> rfl
    · rw [only, imp_iff_not_or]
      split_ifs with fits
      · simp [fits]
      · simp [fits]

theorem serviceTableFind_longest_sample : ∃ table,
    runAll tableStep serviceTableInit [sampleRule] = .ok table ∧ ∃ found,
      serviceTableFind table (some sampleId) 9 .matchAny = .ok found ∧
        ∀ se, found = some se → ∃ s, entryAt table s = some se ∧ s <+: prefixOf sampleId 9 := by
  refine ⟨_, rfl, ?_⟩
  obtain ⟨found, run, longest⟩ := serviceTableFind_longest
    ⟨[sampleRule], sampleRule_admitted, rfl⟩ sampleId (by decide : 9 ≤ 256) .matchAny
  refine ⟨found, run, fun se same => ?_⟩
  obtain ⟨s, held, isLongest, _⟩ := (longest se).mp same
  exact ⟨s, held, isLongest.begins⟩

end Serval
