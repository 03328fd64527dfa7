import ContentLoom.Content.Store

/-!
# Sites

What converters ask of the site whose content they convert: to load an item, to
map between items and addresses, and to render rich text.
-/

namespace ContentLoom

/-- The services of a site. -/
structure Site where
  /-- The item under a reference in a language. -/
  load : ContentReference → Option String → Option ContentItem
  /-- The address of an item in a language. -/
  addressOf : ContentReference → Option String → Option String
  /-- The item that an address leads to. -/
  route : String → Option ContentReference
  /-- Rich text as it is shown in a language. -/
  render : String → Option String → String

/-- The site of a store, which shows rich text as it is stored. -/
def Site.ofStore (s : ContentStore) : Site where
  load r _ := s.load? r
  addressOf r _ := s.addressOf? r
  route := s.route?
  render markup _ := markup

end ContentLoom
