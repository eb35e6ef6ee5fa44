import PhraseCatalog.Emit.DataModule
import PhraseCatalog.Proofs.Store.Ledger

/-! The data module is read back: it holds the text of a value, and this value is the catalog with all
its keys in their order. -/

set_option autoImplicit false

namespace PhraseCatalog.Emit

open Json

/-- Different phrases, each with a record that a store can keep. -/
structure Recorded (catalog : Catalog) : Prop where
  unique : (catalog.map (·.1)).Nodup
  records : ∀ entry ∈ catalog, Store.IsRecord entry.2

theorem Recorded.plain {catalog : Catalog} (h : Recorded catalog) : Plain 151 (.obj catalog) := by
  refine .obj h.unique fun entry hentry => ?_
  obtain ⟨members, -, hplain⟩ := h.records entry hentry
  exact hplain

theorem Recorded.read_dataPayload {catalog : Catalog} (h : Recorded catalog) :
    Json.read (dataPayload catalog) = .ok (.obj catalog) := by
  have hlimit : 151 ≤ nestingLimit := by decide
  exact read_render Style.tabs_readable (h.plain.mono hlimit)

/-- What stands around the payload is the same in all data modules. -/
theorem dataPayload_eq_of_dataModule_eq {catalog catalog' : Catalog}
    (h : dataModule catalog = dataModule catalog') : dataPayload catalog = dataPayload catalog' := by
  have htext := congrArg String.toList h
  unfold dataModule at htext
  rw [String.toList_append, String.toList_append, String.toList_append, String.toList_append] at htext
  exact String.toList_injective (List.append_cancel_left (List.append_cancel_right htext))

/-- The payload of a data module is read as the catalog that it was written from, in the order of the
keys at every level, and so no two catalogs have one data module. -/
theorem dataModule_decodes {catalog : Catalog} (h : Recorded catalog) :
    ∃ payload, dataModule catalog = "export const i18nSource = " ++ payload ++ ";\n"
      ∧ Json.read payload = .ok (.obj catalog)
      ∧ ∀ catalog', Recorded catalog' → catalog' ≠ catalog →
        dataModule catalog' ≠ dataModule catalog := by
  refine ⟨dataPayload catalog, rfl, h.read_dataPayload, fun catalog' h' hne hmodule => ?_⟩
  have hread := h'.read_dataPayload
  rw [dataPayload_eq_of_dataModule_eq hmodule, h.read_dataPayload] at hread
  cases hread
  exact hne rfl

/-- Phrases that look like code, and records with all kinds of values in them, empty ones too. -/
def tangledCatalog : Catalog :=
  [("\x7d;\n\"\\", .obj [("z", .arr [.int (-12), .obj [], .arr [], .null]), ("a", .bool true)]),
    ("404", .obj []), ("", .obj [("\u2028", .str "\x08\x1f\x7f é 😀")])]

theorem recorded_tangledCatalog : Recorded tangledCatalog := by
  refine ⟨by decide, fun entry hentry => ?_⟩
  simp only [tangledCatalog, List.mem_cons, List.not_mem_nil, or_false] at hentry
  rcases hentry with rfl | rfl | rfl
  · refine ⟨_, rfl, .obj (by decide) fun member hmember => ?_⟩
    simp only [List.mem_cons, List.not_mem_nil, or_false] at hmember
    rcases hmember with rfl | rfl
    · refine .arr fun item hitem => ?_
      simp only [List.mem_cons, List.not_mem_nil, or_false] at hitem
      rcases hitem with rfl | rfl | rfl | rfl
      · exact .int _ (by decide)
      · exact .obj List.nodup_nil (by simp)
      · exact .arr (by simp)
      · exact .null _
    · exact .bool _ true
  · exact ⟨_, rfl, .obj List.nodup_nil (by simp)⟩
  · exact ⟨_, rfl, .obj (by decide) (by simpa using .str _ _)⟩

/-- The same entries in another order have another data module. -/
theorem dataModule_decodes_tangled :
    (Recorded tangledCatalog ∧ Recorded tangledCatalog.reverse
        ∧ tangledCatalog.reverse ≠ tangledCatalog)
      ∧ ∃ payload, dataModule tangledCatalog = "export const i18nSource = " ++ payload ++ ";\n"
        ∧ Json.read payload = .ok (.obj tangledCatalog)
        ∧ dataModule tangledCatalog.reverse ≠ dataModule tangledCatalog := by
  have hreverse : Recorded tangledCatalog.reverse :=
    ⟨by decide, fun entry hentry => recorded_tangledCatalog.records entry (by simpa using hentry)⟩
  have hne : tangledCatalog.reverse ≠ tangledCatalog := by
    intro heq
    exact absurd (congrArg (List.map (·.1)) heq) (by decide)
  obtain ⟨payload, hmodule, hread, hother⟩ := dataModule_decodes recorded_tangledCatalog
  exact ⟨⟨recorded_tangledCatalog, hreverse, hne⟩, payload, hmodule, hread, hother _ hreverse hne⟩

end PhraseCatalog.Emit
