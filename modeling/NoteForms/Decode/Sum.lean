import NoteForms.Decode.Decoder

/-! Decoding one of several variants. A value names its variant by an entry whose
key is the variant's tag and carries the payload there, be it null. Exactly one
declared tag must be present; other entries are disregarded. -/

namespace NoteForms.Decode

variable {α : Type}

structure Variant (α : Type) where
  tag : String
  payload : Decoder α

/-- The variants whose tag is present, each with its payload. -/
def presentVariants (object : Object) (variants : List (Variant α)) : List (Variant α × Json) :=
  variants.filterMap fun c => (object.lookup c.tag).map fun p => (c, p)

def sum (variants : List (Variant α)) : Decoder α :=
  ⟨fun v => do
    let object ← Decoder.record.decode v
    match presentVariants object variants with
    | [] => throw (.root (.noVariant (variants.map (·.tag))))
    | [(c, p)] => (c.payload.decode p).mapError (.under (.variant c.tag))
    | cs => throw (.root (.ambiguous (cs.map (·.1.tag))))⟩

end NoteForms.Decode
