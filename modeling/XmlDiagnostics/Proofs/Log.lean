import Mathlib.Data.List.Nodup
import XmlDiagnostics.Diagnostic

/-!
# Logs keep the first of equal diagnostics

`Diagnostic.Log.record` looks at one diagnostic at a time.  `Log.recordAll` is the log after
many of them, and `entries_recordAll` says what it holds without speaking of the order in
which the looking happened: the new diagnostics with repetitions erased, behind the old
ones.  Everything about a run of a reporter is read off that equation.
-/

namespace XmlDiagnostics.Diagnostic.Log

/-- The log after several diagnostics, one after the other. -/
def recordAll (log : Log) (ds : List Diagnostic) : Log :=
  ds.foldl record log

@[simp] theorem recordAll_nil (log : Log) : log.recordAll [] = log := rfl

@[simp] theorem recordAll_cons (log : Log) (d : Diagnostic) (ds : List Diagnostic) :
    log.recordAll (d :: ds) = (log.record d).recordAll ds := rfl

theorem recordAll_append (log : Log) (ds ds' : List Diagnostic) :
    log.recordAll (ds ++ ds') = (log.recordAll ds).recordAll ds' :=
  List.foldl_append

@[simp] theorem entries_empty : empty.entries = [] := rfl

theorem entries_record (log : Log) (d : Diagnostic) :
    (log.record d).entries = if d ∈ log.entries then log.entries else log.entries ++ [d] := by
  unfold record
  split <;> rfl

@[simp] theorem mem_record (log : Log) (d : Diagnostic) : d ∈ (log.record d).entries := by
  rw [entries_record]
  split
  · assumption
  · simp

/-- Recording keeps the entries in place and adds at most one, at the end. -/
theorem entries_record_eq_append (log : Log) (d : Diagnostic) :
    (log.record d).entries = log.entries ∨ (log.record d).entries = log.entries ++ [d] := by
  rw [entries_record]
  split
  · exact Or.inl rfl
  · exact Or.inr rfl

theorem nodup_record {log : Log} (h : log.entries.Nodup) (d : Diagnostic) :
    (log.record d).entries.Nodup := by
  rw [entries_record]
  split
  · exact h
  · rename_i hd
    exact List.nodup_append.mpr ⟨h, List.nodup_singleton d, fun a ha b hb hab ↦
      hd (by rw [List.mem_singleton] at hb; rw [← hb, ← hab]; exact ha)⟩

/-- The entries after several diagnostics: the old ones, and behind them the first of each
kind that was missing. -/
theorem entries_recordAll (log : Log) (ds : List Diagnostic) :
    (log.recordAll ds).entries = log.entries ++ (ds.removeAll log.entries).eraseDups := by
  induction ds generalizing log with
  | nil => simp
  | cons d ds ih =>
    rw [recordAll_cons, ih, entries_record]
    by_cases hd : d ∈ log.entries
    · rw [if_pos hd, List.cons_removeAll]
      simp [hd]
    · rw [if_neg hd, List.cons_removeAll]
      have hfilter : ds.removeAll (log.entries ++ [d]) =
          (ds.removeAll log.entries).filter fun x ↦ !x == d := by
        rw [List.removeAll, List.removeAll, List.filter_filter]
        exact List.filter_congr fun x _ ↦ by simp [Bool.and_comm, beq_eq_decide]
      simp [hd, hfilter, List.eraseDups_cons]

/-- A log that begins empty holds the first of each kind of diagnostic. -/
theorem entries_recordAll_empty (ds : List Diagnostic) :
    (empty.recordAll ds).entries = ds.eraseDups := by
  rw [entries_recordAll]
  simp [List.removeAll]

theorem mem_entries_recordAll {log : Log} {ds : List Diagnostic} {d : Diagnostic} :
    d ∈ (log.recordAll ds).entries ↔ d ∈ log.entries ∨ d ∈ ds := by
  rw [entries_recordAll, List.mem_append, List.mem_eraseDups, List.removeAll, List.mem_filter]
  by_cases hd : d ∈ log.entries <;> simp [hd]

theorem prefix_recordAll (log : Log) (ds : List Diagnostic) :
    log.entries <+: (log.recordAll ds).entries := by
  rw [entries_recordAll]
  exact List.prefix_append _ _

/-- Recording more diagnostics behind the same ones adds entries behind the same ones. -/
theorem recordAll_prefix_recordAll (log : Log) {ds ds' : List Diagnostic} (h : ds <+: ds') :
    (log.recordAll ds).entries <+: (log.recordAll ds').entries := by
  obtain ⟨later, rfl⟩ := h
  rw [recordAll_append]
  exact prefix_recordAll _ later

end XmlDiagnostics.Diagnostic.Log
