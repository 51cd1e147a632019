import ProxyEngine.Value

/-! Values and what their words carry. A word with one of the upper tags gives back the
tag and the payload it was packed from, so a string, a symbol and a handle are read
again from their words, and only words with the tag of objects carry a handle. -/

namespace ProxyEngine

namespace Value

theorem toNat_tagged16 {tag payload : Nat} (tagged : tag < 0x10000)
    (small : payload < 0x100000000) :
    (tagged16 tag payload).bits.toNat = tag * 0x1000000000000 + payload := by
  simp only [tagged16, UInt64.toNat_ofNat']
  omega

theorem upper16_tagged16 {tag payload : Nat} (tagged : tag < 0x10000)
    (small : payload < 0x100000000) : (tagged16 tag payload).upper16 = tag := by
  rw [upper16, toNat_tagged16 tagged small]
  omega

theorem payload_tagged16 {tag payload : Nat} (tagged : tag < 0x10000)
    (small : payload < 0x100000000) : (tagged16 tag payload).payload = payload := by
  rw [Value.payload, toNat_tagged16 tagged small]
  omega

@[simp] theorem upper16_string (a : Atom) : (string a).upper16 = stringTag :=
  upper16_tagged16 (by decide) a.index.toNat_lt

@[simp] theorem upper16_symbol (s : SymbolId) : (symbol s).upper16 = symbolTag :=
  upper16_tagged16 (by decide) s.index.toNat_lt

@[simp] theorem upper16_object (o : ObjectId) : (object o).upper16 = objectTag :=
  upper16_tagged16 (by decide) o.raw_lt

@[simp] theorem asString?_string (a : Atom) : (string a).asString? = some a := by
  have payload : (string a).payload = a.index.toNat :=
    payload_tagged16 (by decide) a.index.toNat_lt
  simp [asString?, isString, payload]

@[simp] theorem asSymbol?_symbol (s : SymbolId) : (symbol s).asSymbol? = some s := by
  have payload : (symbol s).payload = s.index.toNat :=
    payload_tagged16 (by decide) s.index.toNat_lt
  simp [asSymbol?, isSymbol, payload]

@[simp] theorem asObject?_object (o : ObjectId) : (object o).asObject? = some o := by
  have payload : (object o).payload = o.raw := payload_tagged16 (by decide) o.raw_lt
  simp [asObject?, isObject, payload]

@[simp] theorem asString?_object (o : ObjectId) : (object o).asString? = none := by
  simp [asString?, isString, objectTag, stringTag]

@[simp] theorem asSymbol?_object (o : ObjectId) : (object o).asSymbol? = none := by
  simp [asSymbol?, isSymbol, objectTag, symbolTag]

@[simp] theorem asObject?_string (a : Atom) : (string a).asObject? = none := by
  simp [asObject?, isObject, objectTag, stringTag]

@[simp] theorem asObject?_objectOrNull (p : Option ObjectId) : (objectOrNull p).asObject? = p := by
  cases p with
  | none => decide
  | some o => exact asObject?_object o

theorem objectOrNull_inj {p q : Option ObjectId} : objectOrNull p = objectOrNull q ↔ p = q := by
  refine ⟨fun same => ?_, congrArg objectOrNull⟩
  rw [← asObject?_objectOrNull p, same, asObject?_objectOrNull]

theorem boolean_inj {a b : Bool} : boolean a = boolean b ↔ a = b := by
  revert a b
  decide

@[simp] theorem asObject?_undefined : undefined.asObject? = none := by
  decide

end Value

end ProxyEngine
