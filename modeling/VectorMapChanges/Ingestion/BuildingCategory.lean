import VectorMapChanges.Lib.Dict
import VectorMapChanges.Python

/-!
# Building categories

Broad categories of `building=*` values.
-/

namespace VectorMapChanges

def categoryResidential : String := "residential"
def categoryCommercial : String := "commercial"
def categoryIndustrial : String := "industrial"
def categoryReligious : String := "religious"
def categoryCivic : String := "civic"
def categoryOther : String := "other"

/-- `_BUILDING_TAG_TO_CATEGORY` -/
def buildingTagToCategory : List (String × String) :=
  [("house", categoryResidential), ("detached", categoryResidential),
    ("semidetached_house", categoryResidential),
    ("terrace", categoryResidential), ("apartments", categoryResidential),
    ("residential", categoryResidential), ("dormitory", categoryResidential),
    ("bungalow", categoryResidential), ("static_caravan", categoryResidential),
    ("commercial", categoryCommercial), ("retail", categoryCommercial),
    ("office", categoryCommercial), ("supermarket", categoryCommercial),
    ("kiosk", categoryCommercial), ("hotel", categoryCommercial),
    ("restaurant", categoryCommercial), ("industrial", categoryIndustrial),
    ("warehouse", categoryIndustrial), ("manufacture", categoryIndustrial),
    ("factory", categoryIndustrial), ("church", categoryReligious),
    ("mosque", categoryReligious), ("synagogue", categoryReligious),
    ("temple", categoryReligious), ("cathedral", categoryReligious),
    ("chapel", categoryReligious), ("religious", categoryReligious),
    ("school", categoryCivic), ("university", categoryCivic),
    ("hospital", categoryCivic), ("government", categoryCivic),
    ("civic", categoryCivic), ("public", categoryCivic),
    ("kindergarten", categoryCivic), ("train_station", categoryCivic),
    ("fire_station", categoryCivic)]

/-- Lower case, as far as ASCII keys can tell: besides the ASCII capitals only
the Kelvin sign has an ASCII lower case. -/
def lowerChar (c : Char) : Char :=
  if c.toNat = 0x212A then 'k' else c.toLower

/-- Map a raw `building=*` value to a broad category. -/
def categorize : Option String → String
  | none => categoryOther
  | some value =>
      (buildingTagToCategory.lookup
        (String.ofList (value.toList.map lowerChar))).getD categoryOther

example : categorize (some "House") = categoryResidential := by
  decide

end VectorMapChanges
