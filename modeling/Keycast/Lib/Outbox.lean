import Mathlib.Data.List.Nodup
import Mathlib.Data.List.Sublists

/-!
# `Lib/Outbox.lean` — a table of messages to be delivered

Messages are put in a table under keys that are never used again, somebody sends them, and a message
that was acknowledged is removed by its key. Senders may crash, send twice or work from an old copy
of the table. `Sound done` is what survives all of it: the table holds no message that was not put
there, none twice, and one that is missing is `done`.
-/

set_option autoImplicit false

namespace Keycast.Lib

variable {κ μ : Type}

/-- The messages in the table, beside all that were ever put there. -/
structure Outbox (κ μ : Type) where
  written : List (κ × μ)
  table : List (κ × μ)

namespace Outbox

structure Sound (done : μ → Prop) (b : Outbox κ μ) : Prop where
  keys : (b.written.map Prod.fst).Nodup
  table : b.table.Sublist b.written
  kept : ∀ r ∈ b.written, r ∈ b.table ∨ done r.2

variable {done done' : μ → Prop} {written table : List (κ × μ)} {k : κ} {m : μ}

theorem Sound.mono (h : Sound done ⟨written, table⟩) (hdone : ∀ m, done m → done' m) :
    Sound done' ⟨written, table⟩ :=
  ⟨h.keys, h.table, fun r hr => (h.kept r hr).imp_right (hdone r.2)⟩

theorem sound_start (hkeys : (table.map Prod.fst).Nodup) : Sound done ⟨table, table⟩ :=
  ⟨hkeys, List.Sublist.refl _, fun _ hr => .inl hr⟩

theorem Sound.put (h : Sound done ⟨written, table⟩) (hnew : k ∉ written.map Prod.fst) :
    Sound done ⟨written ++ [(k, m)], table ++ [(k, m)]⟩ := by
  refine ⟨?_, h.table.append (List.Sublist.refl _), fun r hr => ?_⟩
  · rw [List.map_append, List.nodup_append]
    refine ⟨h.keys, List.nodup_singleton _, ?_⟩
    rintro a ha b hb rfl
    obtain rfl : a = k := List.mem_singleton.mp hb
    exact hnew ha
  · rcases List.mem_append.mp hr with hr | hr
    · exact (h.kept r hr).imp_left (List.mem_append_left _)
    · exact .inl (List.mem_append_right _ hr)

/-- What is removed by its key is the message that was put there under it. -/
theorem Sound.remove [DecidableEq κ] (h : Sound done ⟨written, table⟩) (hm : (k, m) ∈ written)
    (hdone : done m) :
    Sound done ⟨written, table.filter fun r => r.1 != k⟩ := by
  refine ⟨h.keys, List.filter_sublist.trans h.table, fun r hr => ?_⟩
  by_cases hkey : r.1 = k
  · have hsame : r = (k, m) := List.inj_on_of_nodup_map h.keys hr hm hkey
    rw [hsame]
    exact .inr hdone
  · refine (h.kept r hr).imp_left fun hr => List.mem_filter.mpr ⟨hr, ?_⟩
    simpa using hkey

end Outbox

end Keycast.Lib
