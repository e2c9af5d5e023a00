import ReleaseRadar.Store.MasterData
import ReleaseRadar.Store.ReadPaths

/-!
# What the schema keeps

The primary keys and the column types of the migrations, as far as reading and writing
back rely on them: ids are unique, a text column holds no U+0000, an `INTERVAL` whole
microseconds, a `tone` one of its values. Every statement of the repository that touches
these tables keeps them (the `schema_` lemmas); the other statements leave the tables
alone (`Untouched`).
-/

namespace ReleaseRadar

open Lib

/-- The texts of a product row. -/
def ProductRow.texts (r : ProductRow) : List String := [r.id, r.name] ++ r.owner.toList ++ r.brokers

/-- The texts of a row of `rollout_types`. -/
def RolloutTypeRow.texts (r : RolloutTypeRow) : List String :=
  [r.id, r.name, r.short, r.tone] ++ r.announce.toList ++ r.rules

/-- A row that `rollout_types` can hold. -/
structure TypeRowFits (r : RolloutTypeRow) : Prop where
  text : r.texts.any hasNul = false
  plan : (!r.cascadePlan.items.any fun c => hasNul c.stage) = true
  tone : tones.contains r.tone = true
  delays : pgInterval r.delayProd1 = r.delayProd1 ∧ pgInterval r.delayProd2 = r.delayProd2

structure Schema (s : Store) : Prop where
  rollouts : RolloutKeys s
  products : (s.products.map (·.id)).Nodup
  productText : ∀ r ∈ s.products, r.texts.any hasNul = false
  types : (s.rolloutTypes.map (·.id)).Nodup
  typeRow : ∀ r ∈ s.rolloutTypes, TypeRowFits r
  typeTask : ∀ r ∈ s.rolloutTypeTasks, hasNul r.description = false

/-- The empty tables satisfy their schema. -/
theorem schema_empty : Schema Store.empty where
  rollouts := ⟨List.nodup_nil, fun _ h => absurd h List.not_mem_nil⟩
  products := List.nodup_nil
  productText _ h := absurd h List.not_mem_nil
  types := List.nodup_nil
  typeRow _ h := absurd h List.not_mem_nil
  typeTask _ h := absurd h List.not_mem_nil

/-- The tables `Schema` is about. -/
def schemaTables (s : Store) :
    List RolloutRow × List ProductRow × List RolloutTypeRow × List TypeTaskRow :=
  (s.rollouts, s.products, s.rolloutTypes, s.rolloutTypeTasks)

/-- Only the tables it speaks of count. -/
theorem Schema.congr {s t : Store} (h : schemaTables t = schemaTables s) (hs : Schema s) :
    Schema t := by
  obtain ⟨hr, hp, ht, htt⟩ : t.rollouts = s.rollouts ∧ t.products = s.products ∧
      t.rolloutTypes = s.rolloutTypes ∧ t.rolloutTypeTasks = s.rolloutTypeTasks := by
    simpa [schemaTables] using h
  refine ⟨⟨?_, ?_⟩, ?_, ?_, ?_, ?_, ?_⟩
  · rw [hr]; exact hs.rollouts.ids
  · rw [hr]; exact hs.rollouts.text
  · rw [hp]; exact hs.products
  · rw [hp]; exact hs.productText
  · rw [ht]; exact hs.types
  · rw [ht]; exact hs.typeRow
  · rw [htt]; exact hs.typeTask

/-- Microseconds stay microseconds. -/
theorem pgInterval_idem (d : Int) : pgInterval (pgInterval d) = pgInterval d := by
  unfold pgInterval
  rw [Int.mul_tdiv_cancel _ (by decide)]

namespace Repository

/-- A product that fits keeps the schema. -/
theorem schema_applyProduct {s : Store} {p : Product} (hs : Schema s) (hp : ProductFits p) :
    Schema (applyProduct p s) where
  rollouts := ⟨hs.rollouts.ids, hs.rollouts.text⟩
  products := nodup_upsertRow hs.products
  productText r hr := by
    rcases mem_upsertRow hr with rfl | ⟨hold, -⟩
    · exact hp.text
    · exact hs.productText r hold
  types := hs.types
  typeRow := hs.typeRow
  typeTask := hs.typeTask

theorem typeRowFits_rolloutTypeRow {t : RolloutType} (ht : RolloutTypeFits t) :
    TypeRowFits (rolloutTypeRow t) where
  text := ht.text
  plan := ht.plan
  tone := ht.tone
  delays := ⟨pgInterval_idem _, pgInterval_idem _⟩

/-- So does a type that fits. -/
theorem schema_applyRolloutType {s : Store} {t : RolloutType} (hs : Schema s)
    (ht : RolloutTypeFits t) : Schema (applyRolloutType t s) where
  rollouts := ⟨hs.rollouts.ids, hs.rollouts.text⟩
  products := hs.products
  productText := hs.productText
  types := nodup_upsertRow hs.types
  typeRow r hr := by
    rcases mem_upsertRow hr with rfl | ⟨hold, -⟩
    · exact typeRowFits_rolloutTypeRow ht
    · exact hs.typeRow r hold
  typeTask r hr := by
    rcases List.mem_append.mp hr with hold | hnew
    · exact hs.typeTask r (List.mem_filter.mp hold).1
    · obtain ⟨d, hd, rfl⟩ := List.mem_map.mp hnew
      exact ht.tasks d.1 (List.mem_of_getElem? (List.mem_zipIdx_iff_getElem?.mp hd))

/-- A new id keeps the keys. -/
theorem rolloutKeys_applyCreate {s : Store} {now : Int} {ro : Rollout} {tasks : List String}
    (hk : RolloutKeys s) (hnew : s.hasRollout ro.id = false) (htext : hasNul ro.id = false) :
    RolloutKeys (applyCreate now ro tasks s) where
  ids := by
    show ((s.rollouts ++ [createdRow now ro]).map (·.id)).Nodup
    rw [List.map_append]
    refine hk.ids.append (List.nodup_singleton _) fun id hid hid' => ?_
    obtain ⟨r, hr, rfl⟩ := List.mem_map.mp hid
    have hhas : s.hasRollout ro.id = true :=
      List.any_eq_true.mpr ⟨r, hr, beq_iff_eq.mpr (List.mem_singleton.mp hid')⟩
    rw [hnew] at hhas
    cases hhas
  text r hr := by
    rcases List.mem_append.mp hr with hold | hlast
    · exact hk.text r hold
    · rw [List.mem_singleton.mp hlast]
      exact htext

/-- An update keeps the ids. -/
theorem map_id_updatedRow (now : Int) (ro : Rollout) (rows : List RolloutRow) :
    (rows.map (updatedRow now ro)).map (·.id) = rows.map (·.id) := by
  rw [List.map_map]
  refine List.map_congr_left fun r _ => ?_
  simp only [Function.comp, updatedRow]
  split <;> rfl

/-- An update keeps them, -/
theorem rolloutKeys_applyUpdate {s : Store} {now : Int} {ro : Rollout} (hk : RolloutKeys s) :
    RolloutKeys (applyUpdate now ro s) where
  ids := by
    show ((s.rollouts.map (updatedRow now ro)).map (·.id)).Nodup
    rw [map_id_updatedRow]
    exact hk.ids
  text r hr := by
    have hid : r.id ∈ (s.rollouts.map (updatedRow now ro)).map (·.id) := List.mem_map_of_mem hr
    rw [map_id_updatedRow] at hid
    obtain ⟨r', hr', he⟩ := List.mem_map.mp hid
    rw [← he]
    exact hk.text r' hr'

/-- and a delete. -/
theorem rolloutKeys_applyDelete {s : Store} {id : String} (hk : RolloutKeys s) :
    RolloutKeys (applyDelete id s) where
  ids := hk.ids.sublist (List.filter_sublist.map _)
  text r hr := hk.text r (List.mem_filter.mp hr).1

/-- A rollout with a new id keeps the schema. -/
theorem schema_applyCreate {s : Store} {now : Int} {ro : Rollout} {tasks : List String}
    (hs : Schema s) (hnew : s.hasRollout ro.id = false) (htext : hasNul ro.id = false) :
    Schema (applyCreate now ro tasks s) :=
  { hs with rollouts := rolloutKeys_applyCreate hs.rollouts hnew htext }

theorem schema_applyUpdate {s : Store} {now : Int} {ro : Rollout} (hs : Schema s) :
    Schema (applyUpdate now ro s) :=
  { hs with rollouts := rolloutKeys_applyUpdate hs.rollouts }

theorem schema_applyDelete {s : Store} {id : String} (hs : Schema s) :
    Schema (applyDelete id s) :=
  { hs with rollouts := rolloutKeys_applyDelete hs.rollouts }

/-- The rollout types can be read. -/
theorem total_rolloutTypes {s : Store} (hs : Schema s) :
    Db.Total (· = s) rolloutTypes
      fun ts t => t = s ∧ ts = (orderBy (·.name) s.rolloutTypes).map (readRolloutType s) := by
  have htext : ∀ r ∈ s.rolloutTypes, hasNul r.id = false := by
    intro r hr
    have := (hs.typeRow r hr).text
    simp only [RolloutTypeRow.texts, List.cons_append, List.any_cons, Bool.or_eq_false_iff] at this
    exact this.1
  have htotal : Db.Total (· = s) rolloutTypes fun _ _ => True := by
    refine Db.total_bind (total_select rfl) fun rows => ?_
    rintro F d hF ⟨hd, rfl⟩
    refine (?_ : Db.Total (· = s) _ fun _ _ => True) F d hF hd
    refine Db.total_bind (Db.total_mapEach fun t ht => ?_) fun out => ?_
    · obtain ⟨r, hr, rfl⟩ := List.mem_map.mp ht
      exact Db.total_bind (total_rolloutTypeTasks (htext r ((List.mem_insertionSort _).mp hr)))
        fun _ => Db.total_pure fun _ h => h.1
    · exact Db.total_pure fun _ _ => trivial
  intro F c hF hc
  obtain ⟨ts, c', hts, hF', -⟩ := htotal F c hF hc
  subst hc
  exact ⟨ts, c', hts, hF', rolloutTypes_ok hts⟩

end Repository

end ReleaseRadar
