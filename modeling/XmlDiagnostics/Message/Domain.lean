/-!
# Message domains

The keys of errors belong to domains, and a domain is named by an address.  Four of them
have messages of their own; every other address is a domain as well.
-/

namespace XmlDiagnostics.Message

/-- What a message key belongs to. -/
inductive Domain where
  /-- XML 1.0. -/
  | xml
  /-- Namespaces in XML. -/
  | namespaces
  /-- XML Schema. -/
  | schema
  /-- The processing instruction `xml-model`. -/
  | model
  /-- Any other domain, by its address. -/
  | other (address : String)
deriving DecidableEq, Repr

namespace Domain

/-- The address of XML 1.0. -/
def xmlAddress : String := "http://www.w3.org/TR/1998/REC-xml-19980210"

/-- The address of Namespaces in XML. -/
def namespacesAddress : String := "http://www.w3.org/TR/1999/REC-xml-names-19990114"

/-- The address of XML Schema. -/
def schemaAddress : String := "http://www.w3.org/TR/xml-schema-1"

/-- The address of `xml-model`. -/
def modelAddress : String := "http://www.w3.org/TR/xml-model/"

/-- The domain with a given address. -/
def ofAddress (address : String) : Domain :=
  if address = xmlAddress then xml
  else if address = namespacesAddress then namespaces
  else if address = schemaAddress then schema
  else if address = modelAddress then model
  else other address

/-- The address of a domain. -/
def address : Domain → String
  | xml => xmlAddress
  | namespaces => namespacesAddress
  | schema => schemaAddress
  | model => modelAddress
  | other address => address

/-- The domain with a given address has that address. -/
@[simp] theorem address_ofAddress (address : String) : (ofAddress address).address = address := by
  unfold ofAddress
  split
  · rename_i h
    exact h.symm
  · split
    · rename_i h
      exact h.symm
    · split
      · rename_i h
        exact h.symm
      · split
        · rename_i h
          exact h.symm
        · rfl

/-- Different addresses are those of different domains. -/
@[simp] theorem ofAddress_inj {address address' : String} :
    ofAddress address = ofAddress address' ↔ address = address' := by
  constructor
  · intro h
    rw [← address_ofAddress address, h, address_ofAddress]
  · rintro rfl
    rfl

end Domain

end XmlDiagnostics.Message
