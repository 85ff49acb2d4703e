import FeatureCensus.Json.Reader
import FeatureCensus.Text.FormEncoding
import FeatureCensus.Text.Quoted

/-!
# Sources

A source is a search for repositories, whose results come page by page.

Main definitions:

- Definition {lit}`Source`: the searches.
- Definition {lit}`Source.pageAddress`: the address of a page of results.
-/

namespace FeatureCensus

open Text

/-- A user name and a token. -/
structure Credentials where
  user : String
  token : String
  deriving DecidableEq, Repr, Inhabited

/-- A search for repositories.  A query or a size of pages that is left out is no part of
the request. -/
structure Source where
  query? : Option String := some "language:kotlin"
  perPage? : Option Int := some 100
  credentials? : Option Credentials := none
  /-- How the bodies of pages are read where the search runs. -/
  reading : Json.Settings := {}
  deriving DecidableEq, Repr, Inhabited

namespace Source

/-- Credentials of a user and a token, both of which must be there and not empty. -/
def credentialsOf? (user token : Option String) : Option Credentials :=
  let user := user.getD ""
  let token := token.getD ""
  if user.isEmpty || token.isEmpty then none else some ⟨user, token⟩

/-- The name of the source. -/
def name : String := "github_search"

/-- The query in messages. -/
def queryText (source : Source) : String :=
  source.query?.getD "None"

/-- The source with its query. -/
def description (source : Source) : String :=
  "GithubSearchSource(" ++ (source.query?.map quoted).getD "None" ++ ")"

/-- The address that is searched. -/
def searchAddress : String := "https://api.github.com/search/repositories"

/-- The address of a page of results. -/
def pageAddress (source : Source) (page : Nat) : String :=
  searchAddress ++ "?" ++ formQuery
    ((source.query?.map ("q", ·)).toList ++ [("page", toString page)] ++
      (source.perPage?.map fun size => ("per_page", toString size)).toList)

end Source
end FeatureCensus
