import ServiceImport.Proofs.Properties
import ServiceImport.Proxy

/-! # Properties of proxies

A proxy has the marks of its import. Under every other key it has what its reference has there,
unless the key is reserved. So references that differ under reserved keys and marks only cannot be
told apart by their proxies.
-/

namespace ServiceImport

/-- The keys of the marks that every proxy carries. -/
def markKeys : List String :=
  [Key.serviceImported, Key.endpointId, Key.serviceImportedConfigs]

variable {settings : Settings} {e : Endpoint} {c : Candidate}

theorem get?_proxyProperties_imported (reference : Reference) :
    (proxyProperties settings e c reference).get? Key.serviceImported = some (.flag true) := by
  have hconfigs : Key.serviceImported ≠ Key.serviceImportedConfigs := by decide
  have hid : Key.serviceImported ≠ Key.endpointId := by decide
  simp [proxyProperties, hconfigs, hid]

theorem get?_proxyProperties_endpointId (reference : Reference) :
    (proxyProperties settings e c reference).get? Key.endpointId = some (.text e.id) := by
  have hconfigs : Key.endpointId ≠ Key.serviceImportedConfigs := by decide
  simp [proxyProperties, hconfigs]

theorem get?_proxyProperties_configs (reference : Reference) :
    (proxyProperties settings e c reference).get? Key.serviceImportedConfigs =
      some (.list [c.configuration]) := by
  simp [proxyProperties]

theorem get?_proxyProperties_of_not_mem (reference : Reference) {key : String}
    (h : key ∉ markKeys) :
    (proxyProperties settings e c reference).get? key =
      if key ∈ settings.reserved then none else reference.properties.get? key := by
  simp only [markKeys, List.mem_cons, List.not_mem_nil, or_false, not_or] at h
  obtain ⟨himported, hid, hconfigs⟩ := h
  by_cases hkey : key ∈ settings.reserved
  · simp [proxyProperties, Settings.isReserved, himported, hid, hconfigs, hkey]
  · simp [proxyProperties, Settings.isReserved, himported, hid, hconfigs, hkey]

theorem get?_proxyProperties_of_mem (r r' : Reference) {key : String} (h : key ∈ markKeys) :
    (proxyProperties settings e c r).get? key = (proxyProperties settings e c r').get? key := by
  simp only [markKeys, List.mem_cons, List.not_mem_nil, or_false] at h
  rcases h with rfl | rfl | rfl
  · rw [get?_proxyProperties_imported, get?_proxyProperties_imported]
  · rw [get?_proxyProperties_endpointId, get?_proxyProperties_endpointId]
  · rw [get?_proxyProperties_configs, get?_proxyProperties_configs]

/-- Whatever is reserved, a proxy has the three marks, under every other key the value of its
reference if the key is not reserved and none if it is, and nothing of the reference but these
values goes into it. -/
theorem proxyProperties_exact (settings : Settings) (e : Endpoint) (c : Candidate) :
    (∀ reference : Reference,
      let p := proxyProperties settings e c reference
      p.get? Key.serviceImported = some (.flag true) ∧
      p.get? Key.endpointId = some (.text e.id) ∧
      p.get? Key.serviceImportedConfigs =
        some (.list [c.container.connectNamespace.getD c.container.id.ns]) ∧
      ∀ key, key ∉ markKeys →
        p.get? key = if key ∈ settings.reserved then none else reference.properties.get? key) ∧
    ∀ r r' : Reference,
      (∀ key, key ∉ settings.reserved → key ∉ markKeys →
        r.properties.get? key = r'.properties.get? key) →
      proxyProperties settings e c r = proxyProperties settings e c r' := by
  constructor
  · intro reference
    exact ⟨get?_proxyProperties_imported reference, get?_proxyProperties_endpointId reference,
      get?_proxyProperties_configs reference, fun key => get?_proxyProperties_of_not_mem reference⟩
  · intro r r' same
    apply Properties.ext_get?
    intro key
    by_cases hmark : key ∈ markKeys
    · exact get?_proxyProperties_of_mem r r' hmark
    · rw [get?_proxyProperties_of_not_mem r hmark, get?_proxyProperties_of_not_mem r' hmark]
      split
      · rfl
      · next hkey => exact same key hkey hmark

/-- A forged mark and a secret of either reference do not come through, and its region does. -/
theorem proxyProperties_exact_secret :
    let settings : Settings := { reserved := ["secret", "endpoint.id"] }
    let e : Endpoint := { id := "lamp", location := ⟨"home://lamp"⟩ }
    let c : Candidate := ⟨⟨"lamps", ⟨"home", "lamps"⟩, none, true⟩, "lamps"⟩
    let r : Reference := ⟨1, ⟨"home", "lamps"⟩,
      .ofList [("region", .text "eu"), ("secret", .int 7), ("service.imported", .flag false)]⟩
    let r' : Reference := ⟨2, ⟨"home", "lamps"⟩,
      .ofList [("endpoint.id", .text "door"), ("region", .text "eu"), ("secret", .int 8)]⟩
    let p := proxyProperties settings e c r
    p.get? "secret" = none ∧ p.get? "region" = some (.text "eu") ∧
      p.get? "service.imported" = some (.flag true) ∧ p = proxyProperties settings e c r' := by
  intro settings e c r r' p
  obtain ⟨exact, congr⟩ := proxyProperties_exact settings e c
  obtain ⟨imported, _, _, others⟩ := exact r
  refine ⟨?_, ?_, imported, congr r r' ?_⟩
  · rw [others "secret" (by decide)]
    rfl
  · rw [others "region" (by decide)]
    decide
  · intro key hkey hmark
    simp only [settings, List.mem_cons, List.not_mem_nil, or_false, not_or] at hkey
    simp only [markKeys, Key.serviceImported, List.mem_cons, not_or] at hmark
    simp [r, r', Properties.ofList, Properties.insertMany, hkey, hmark]

end ServiceImport
