import ContentLoom.Content.Site
import ContentLoom.Pipeline.Step

/-!
# Known converters

The converters that every service has unless others take their place.  Each
accepts one kind of value, and null as the absence of it.  Content that a site
does not find is no failure: a link has no address then, an asset is absent, a
block is null, and an entry of an area is left out.
-/

namespace ContentLoom.Pipeline

variable {σ : Type}

/-- Fails on a value of another kind than expected. -/
def unexpected {α : Type} (converter : String) (r : Request) (expected : String)
    (found : ContentValue) : Run σ α :=
  throw (.unexpectedValue converter r.property expected found.kindName)

/-- The reference that a value is; null is the empty one. -/
def referenceOf (converter : String) (r : Request) : ContentValue → Run σ ContentReference
  | .null => pure .empty
  | .reference target => pure target
  | other => unexpected converter r "reference" other

/-! ### References -/

/-- A reference becomes a link to the address of the item. -/
def contentReferenceConverter (site : Site) : Converter σ where
  name := "ContentReferenceConverter"
  convert context r value := do
    let target ← referenceOf "ContentReferenceConverter" r value
    if target.isEmpty then pure (.link none)
    else pure (.link (site.addressOf target context.language))

/-- A reference becomes an asset with the address, the type and the model of the item. -/
def mediaConverter (site : Site) : Converter σ where
  name := "MediaConverter"
  convert context r value := do
    let target ← referenceOf "MediaConverter" r value
    if target.isEmpty then pure (.media .absent)
    else
      match site.load target context.language with
      | none => pure (.media .absent)
      | some item => do
        let model ← context.nested item
        pure (.media ⟨site.addressOf target context.language, some item.typeName, some model⟩)

/-- A reference becomes the model of the item. -/
def blockConverter (site : Site) : Converter σ where
  name := "BlockConverter"
  convert context r value := do
    let target ← referenceOf "BlockConverter" r value
    if target.isEmpty then pure .null
    else
      match site.load target context.language with
      | none => pure .null
      | some item => do
        let model ← context.nested item
        pure (.model model)

/-! ### Items in place -/

/-- An embedded item becomes its model. -/
def embeddedBlockConverter : Converter σ where
  name := "EmbeddedBlockConverter"
  convert context r
    | .null => pure .null
    | .block item => do
      let model ← context.nested item
      pure (.model model)
    | other => unexpected "EmbeddedBlockConverter" r "block" other

/-- The models of the entries of an area whose items are found. -/
def areaModels (site : Site) (context : Context σ) : List AreaEntry → Run σ (List AreaModel)
  | [] => pure []
  | e :: es =>
    match site.load e.reference context.language with
    | none => areaModels site context es
    | some item => do
      let model ← context.nested item
      let models ← areaModels site context es
      pure (⟨e.displayOption, some model⟩ :: models)

/-- An area becomes the models of its entries. -/
def contentAreaConverter (site : Site) : Converter σ where
  name := "ContentAreaConverter"
  convert context r
    | .null => pure .null
    | .area entries => do
      let models ← areaModels site context entries
      pure (.area models)
    | other => unexpected "ContentAreaConverter" r "content area" other

/-! ### Texts -/

/-- A character of a scheme after its first. -/
def isSchemeChar (c : Char) : Bool := c.isAlphanum || c == '+' || c == '-' || c == '.'

/-- Whether an address begins with a scheme. -/
def isAbsolute (address : List Char) : Bool :=
  match Text.cutFirst? ':' address with
  | some (first :: rest, _) => first.isAlpha && rest.all isSchemeChar
  | _ => false

/-- The address of the item that a relative address leads to; otherwise the address itself. -/
def friendlyAddress (site : Site) (language : Option String) (address : String) : String :=
  if isAbsolute address.toList then address
  else
    match site.route address with
    | none => address
    | some target =>
      if target.isEmpty then address
      else
        match site.addressOf target language with
        | none => address
        | some friendly => if friendly.isEmpty then address else friendly

/-- An address becomes a link. -/
def linkConverter (site : Site) : Converter σ where
  name := "LinkConverter"
  convert context r
    | .null => pure (.link none)
    | .url address => pure (.link (some (friendlyAddress site context.language address)))
    | .text address => pure (.link (some (friendlyAddress site context.language address)))
    | other => unexpected "LinkConverter" r "url" other

/-- Rich text is rendered; without any the text is empty. -/
def xhtmlStringConverter (site : Site) : Converter σ where
  name := "XhtmlStringConverter"
  convert context r
    | .null => pure (.text "")
    | .xhtml markup => pure (.text (site.render markup context.language))
    | other => unexpected "XhtmlStringConverter" r "xhtml" other

/-- A variant of an enumeration becomes its name. -/
def enumConverter : Converter σ where
  name := "EnumConverter"
  convert _ r
    | .null => pure .null
    | .enumeration variant => pure (.text variant)
    | other => unexpected "EnumConverter" r "enum" other

/-- The converter of a known kind for a site. -/
def knownConverter (site : Site) : KnownConverter → Converter σ
  | .media => mediaConverter site
  | .block => blockConverter site
  | .embeddedBlock => embeddedBlockConverter
  | .contentReference => contentReferenceConverter site
  | .contentArea => contentAreaConverter site
  | .link => linkConverter site
  | .xhtmlString => xhtmlStringConverter site

end ContentLoom.Pipeline
