import Postal.Text

/-!
# Keys of region records

The names under which a region record holds its texts. A key is found by its
name in any case.
-/

set_option autoImplicit false

namespace Postal

inductive RegionKey where
  | countries
  | fmt
  | id
  | isoid
  | key
  | lang
  | languages
  | lfmt
  | localityNameType
  | require
  | stateNameType
  | sublocalityNameType
  | subKeys
  | subLnames
  | subMores
  | subNames
  | widthOverrides
  | xzip
  | zip
  | zipNameType
  | postPrefix
  | postUrl
  deriving DecidableEq, Repr

namespace RegionKey

def all : List RegionKey :=
  [countries, fmt, id, isoid, key, lang, languages, lfmt, localityNameType, require,
    stateNameType, sublocalityNameType, subKeys, subLnames, subMores, subNames, widthOverrides,
    xzip, zip, zipNameType, postPrefix, postUrl]

def name : RegionKey → Text
  | countries => "countries".toList
  | fmt => "fmt".toList
  | id => "id".toList
  | isoid => "isoid".toList
  | key => "key".toList
  | lang => "lang".toList
  | languages => "languages".toList
  | lfmt => "lfmt".toList
  | localityNameType => "locality_name_type".toList
  | require => "require".toList
  | stateNameType => "state_name_type".toList
  | sublocalityNameType => "sublocality_name_type".toList
  | subKeys => "sub_keys".toList
  | subLnames => "sub_lnames".toList
  | subMores => "sub_mores".toList
  | subNames => "sub_names".toList
  | widthOverrides => "width_overrides".toList
  | xzip => "xzip".toList
  | zip => "zip".toList
  | zipNameType => "zip_name_type".toList
  | postPrefix => "postprefix".toList
  | postUrl => "posturl".toList

def ofName? (name : Text) : Option RegionKey :=
  all.find? fun k => k.name.equalIgnoringCase name

end RegionKey
end Postal
