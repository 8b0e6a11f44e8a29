/-!
# Locales

A locale is a language tag such as `en` or `fr-CA`.  Its first subtag is the language.
Messages exist in English only, whatever the locale asks for.
-/

namespace XmlDiagnostics.Message

/-- A language tag. -/
structure Locale where
  /-- The tag as it was given. -/
  tag : String
deriving DecidableEq, Repr

namespace Locale

/-- The tag up to its first hyphen or underscore. -/
def language (l : Locale) : String :=
  String.ofList (l.tag.toList.takeWhile fun c ↦ c ≠ '-' && c ≠ '_')

/-- Whether the language is English or left open.  The case of ASCII letters does not
matter. -/
def isEnglish (l : Locale) : Bool :=
  l.language = "" || l.language.toList.map Char.toLower = ['e', 'n']

end Locale

end XmlDiagnostics.Message
