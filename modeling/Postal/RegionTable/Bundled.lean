import Postal.Json.Printer
import Postal.RegionTable
import Postal.Text.Search

/-!
# The bundled region table

The records that are used where no other table is given, sorted by region
code. Most members are plain texts; some regions also override the labels
that a form shows for their fields. The text of a region is its record
printed compactly, found by binary search.
-/

set_option autoImplicit false

namespace Postal.Bundled

def plain (members : List (String × String)) : RegionRecord :=
  members.map fun (name, value) => (name.toList, .string value.toList)

def region (code : String) (members : List (String × String)) : Text × RegionRecord :=
  (code.toList, plain members)

def labelled (code : String) (members : List (String × String)) (labels : List (Json Text)) :
    Text × RegionRecord :=
  (code.toList, plain members ++ [("label_overrides".toList, .array labels)])

def label (field text : String) : Json Text := .object (plain [("field", field), ("label", text)])

def labelIn (language field text : String) : Json Text :=
  .object (plain [("field", field), ("label", text), ("lang", language)])

def message (field name : String) : Json Text :=
  .object (plain [("field", field), ("message", name)])

def records : List (Text × RegionRecord) := [
  region "AC" [("name", "ASCENSION ISLAND"), ("fmt", "%N%n%O%n%A%n%C%n%Z")],
  region "AD" [("name", "ANDORRA"), ("lang", "ca"), ("languages", "ca"),
    ("fmt", "%N%n%O%n%A%n%Z %C")],
  region "AE" [("name", "UNITED ARAB EMIRATES"), ("lang", "ar"), ("languages", "ar"),
    ("lfmt", "%N%n%O%n%A%n%S"), ("fmt", "%N%n%O%n%A%n%S"), ("require", "AS"),
    ("state_name_type", "emirate")],
  region "AF" [("name", "AFGHANISTAN"), ("fmt", "%N%n%O%n%A%n%C%n%Z")],
  region "AG" [("name", "ANTIGUA AND BARBUDA"), ("require", "A")],
  region "AI" [("name", "ANGUILLA"), ("fmt", "%N%n%O%n%A%n%C%n%Z")],
  region "AL" [("name", "ALBANIA"), ("fmt", "%N%n%O%n%A%n%Z%n%C")],
  region "AM" [("name", "ARMENIA"), ("lang", "hy"), ("languages", "hy"),
    ("lfmt", "%N%n%O%n%A%n%Z%n%C%n%S"), ("fmt", "%N%n%O%n%A%n%Z%n%C%n%S")],
  region "AO" [("name", "ANGOLA")],
  region "AQ" [("name", "ANTARCTICA")],
  region "AR" [("name", "ARGENTINA"), ("lang", "es"), ("languages", "es"),
    ("fmt", "%N%n%O%n%A%n%Z %C%n%S"), ("upper", "ACZ")],
  region "AS" [("name", "AMERICAN SAMOA"), ("fmt", "%N%n%O%n%A%n%C %S %Z"), ("require", "ACSZ"),
    ("upper", "ACNOS"), ("state_name_type", "state"), ("zip_name_type", "zip")],
  region "AT" [("name", "AUSTRIA"), ("fmt", "%O%n%N%n%A%n%Z %C"), ("require", "ACZ")],
  region "AU" [("name", "AUSTRALIA"), ("lang", "en"), ("languages", "en"),
    ("fmt", "%O%n%N%n%A%n%C %S %Z"), ("require", "ACSZ"), ("upper", "CS"),
    ("locality_name_type", "suburb"), ("state_name_type", "state")],
  region "AW" [("name", "ARUBA")],
  region "AX" [("name", "FINLAND"), ("fmt", "%O%n%N%n%A%nAX-%Z %C%nÅLAND"), ("require", "ACZ"),
    ("postprefix", "AX-")],
  region "AZ" [("name", "AZERBAIJAN"), ("fmt", "%N%n%O%n%A%nAZ %Z %C"), ("postprefix", "AZ ")],
  region "BA" [("name", "BOSNIA AND HERZEGOVINA"), ("fmt", "%N%n%O%n%A%n%Z %C")],
  region "BB" [("name", "BARBADOS"), ("lang", "en"), ("languages", "en"),
    ("fmt", "%N%n%O%n%A%n%C, %S %Z"), ("state_name_type", "parish")],
  region "BD" [("name", "BANGLADESH"), ("fmt", "%N%n%O%n%A%n%C - %Z")],
  region "BE" [("name", "BELGIUM"), ("fmt", "%O%n%N%n%A%n%Z %C"), ("require", "ACZ")],
  region "BF" [("name", "BURKINA FASO"), ("fmt", "%N%n%O%n%A%n%C %X")],
  region "BG" [("name", "BULGARIA (REP.)"), ("fmt", "%N%n%O%n%A%n%Z %C")],
  region "BH" [("name", "BAHRAIN"), ("fmt", "%N%n%O%n%A%n%C %Z")],
  region "BI" [("name", "BURUNDI")],
  region "BJ" [("name", "BENIN"), ("upper", "AC")],
  region "BL" [("name", "SAINT BARTHELEMY"), ("fmt", "%O%n%N%n%A%n%Z %C %X"), ("require", "ACZ"),
    ("upper", "ACX")],
  region "BM" [("name", "BERMUDA"), ("fmt", "%N%n%O%n%A%n%C %Z")],
  region "BN" [("name", "BRUNEI DARUSSALAM"), ("fmt", "%N%n%O%n%A%n%C %Z")],
  region "BO" [("name", "BOLIVIA"), ("upper", "AC")],
  region "BQ" [("name", "BONAIRE, SINT EUSTATIUS, AND SABA")],
  labelled "BR" [("name", "BRAZIL"), ("lang", "pt"), ("languages", "pt"),
    ("fmt", "%O%n%N%n%A%n%D%n%C-%S%n%Z"), ("require", "ASCZ"), ("upper", "CS"),
    ("sublocality_name_type", "neighborhood"), ("state_name_type", "state"),
    ("width_overrides", "%C:L%S:S")]
    [label "S2" "Setor/ADE/Folha", label "S3" "Quadra", label "S4" "Trecho/AE/Modulo",
     label "S5" "Cj/Bl/MI/Projeção/Etapa", label "LP" "Lote", label "BI" "Casa/Comercio",
     label "CG" "Complexo/Chácara"],
  region "BS" [("name", "BAHAMAS"), ("lang", "en"), ("languages", "en"),
    ("fmt", "%N%n%O%n%A%n%C, %S"), ("state_name_type", "island")],
  region "BT" [("name", "BHUTAN"), ("fmt", "%N%n%O%n%A%n%C %Z")],
  region "BV" [("name", "BOUVET ISLAND")],
  region "BW" [("name", "BOTSWANA")],
  region "BY" [("name", "BELARUS"), ("lang", "be"), ("languages", "be~ru"),
    ("fmt", "%O%n%N%n%A%n%Z, %C%n%S")],
  region "BZ" [("name", "BELIZE")],
  region "CA" [("name", "CANADA"), ("lang", "en"), ("languages", "en~fr"),
    ("fmt", "%N%n%O%n%A%n%C %S %Z"), ("require", "ACSZ"), ("upper", "ACNOSZ")],
  region "CC" [("name", "COCOS (KEELING) ISLANDS"), ("fmt", "%O%n%N%n%A%n%C %S %Z"),
    ("upper", "CS")],
  region "CD" [("name", "CONGO (DEM. REP.)")],
  region "CF" [("name", "CENTRAL AFRICAN REPUBLIC")],
  region "CG" [("name", "CONGO (REP.)")],
  region "CH" [("name", "SWITZERLAND"), ("fmt", "%O%n%N%n%A%nCH-%Z %C"), ("require", "ACZ"),
    ("upper", ""), ("postprefix", "CH-")],
  region "CI" [("name", "COTE D'IVOIRE"), ("fmt", "%N%n%O%n%X %A %C %X")],
  region "CK" [("name", "COOK ISLANDS")],
  region "CL" [("name", "CHILE"), ("lang", "es"), ("languages", "es"),
    ("fmt", "%N%n%O%n%A%n%Z %C%n%S")],
  region "CM" [("name", "CAMEROON")],
  labelled "CN" [("name", "CHINA"), ("lang", "zh"), ("languages", "zh"),
    ("lfmt", "%N%n%O%n%A%n%D%n%C%n%S, %Z"), ("fmt", "%Z%n%S%C%D%n%A%n%O%n%N"), ("require", "ACSZ"),
    ("upper", "S"), ("sublocality_name_type", "district"), ("width_overrides", "%S:S%C:S%D:S")]
    [labelIn "zh" "C" "市/自治州/地区/盟", labelIn "zh" "S" "省/自治区/直辖市", labelIn "zh" "D" "区/县/旗"],
  labelled "CO" [("name", "COLOMBIA"), ("lang", "es"), ("languages", "es"),
    ("fmt", "%N%n%O%n%A%n%D%n%C, %S, %Z"), ("require", "AS"), ("state_name_type", "department")]
    [label "LL" "Vereda", label "A3" "Corregimiento", label "A2" "Municipio"],
  region "CR" [("name", "COSTA RICA"), ("lang", "es"), ("languages", "es"),
    ("fmt", "%N%n%O%n%A%n%S, %C%n%Z"), ("require", "ACS")],
  region "CU" [("name", "CUBA"), ("lang", "es"), ("languages", "es"),
    ("fmt", "%N%n%O%n%A%n%C %S%n%Z")],
  region "CV" [("name", "CAPE VERDE"), ("lang", "pt"), ("languages", "pt"),
    ("fmt", "%N%n%O%n%A%n%Z %C%n%S"), ("state_name_type", "island")],
  region "CW" [("name", "CURACAO")],
  region "CX" [("name", "CHRISTMAS ISLAND"), ("fmt", "%O%n%N%n%A%n%C %S %Z"), ("upper", "CS")],
  region "CY" [("name", "CYPRUS"), ("fmt", "%N%n%O%n%A%n%Z %C")],
  labelled "CZ" [("name", "CZECH REP."), ("fmt", "%N%n%O%n%A%n%Z %C"), ("require", "ACZ")]
    [labelIn "cs" "NH" "Obecní část", labelIn "sk" "NH" "Obecný časť", label "BI" "Descriptive No.",
     labelIn "cs" "BI" "Popisné číslo", labelIn "sk" "BI" "Súpisné číslo",
     label "SN" "Orientation No.", labelIn "cs" "SN" "Orientační číslo",
     labelIn "sk" "SN" "Orientačné číslo", label "S1" "City District",
     labelIn "cs" "S1" "Městská část", labelIn "sk" "S1" "Mestská časť"],
  region "DE" [("name", "GERMANY"), ("fmt", "%N%n%O%n%A%n%Z %C"), ("require", "ACZ")],
  region "DJ" [("name", "DJIBOUTI")],
  region "DK" [("name", "DENMARK"), ("fmt", "%N%n%O%n%A%n%Z %C"), ("require", "ACZ")],
  region "DM" [("name", "DOMINICA")],
  region "DO" [("name", "DOMINICAN REP."), ("fmt", "%N%n%O%n%A%n%Z %C")],
  region "DZ" [("name", "ALGERIA"), ("fmt", "%N%n%O%n%A%n%Z %C")],
  region "EC" [("name", "ECUADOR"), ("fmt", "%N%n%O%n%A%n%Z%n%C"), ("upper", "CZ")],
  labelled "EE" [("name", "ESTONIA"), ("lang", "et"), ("languages", "et"),
    ("fmt", "%N%n%O%n%A%n%Z %C %S"), ("require", "ACZ")]
    [labelIn "et" "C" "Linn/vald", labelIn "en" "C" "City/Parish", labelIn "et" "S" "Maakond",
     labelIn "en" "S" "Region"],
  region "EG" [("name", "EGYPT"), ("lang", "ar"), ("languages", "ar"),
    ("lfmt", "%N%n%O%n%A%n%C%n%S%n%Z"), ("fmt", "%N%n%O%n%A%n%C%n%S%n%Z")],
  region "EH" [("name", "WESTERN SAHARA"), ("fmt", "%N%n%O%n%A%n%Z %C")],
  region "ER" [("name", "ERITREA")],
  region "ES" [("name", "SPAIN"), ("lang", "es"), ("languages", "es~ca~gl~eu"),
    ("fmt", "%N%n%O%n%A%n%Z %C %S"), ("require", "ACSZ"), ("upper", "CS"),
    ("width_overrides", "%S:S")],
  region "ET" [("name", "ETHIOPIA"), ("fmt", "%N%n%O%n%A%n%Z %C")],
  region "FI" [("name", "FINLAND"), ("fmt", "%O%n%N%n%A%nFI-%Z %C"), ("require", "ACZ"),
    ("postprefix", "FI-")],
  region "FJ" [("name", "FIJI")],
  region "FK" [("name", "FALKLAND ISLANDS (MALVINAS)"), ("fmt", "%N%n%O%n%A%n%C%n%Z"),
    ("require", "ACZ"), ("upper", "CZ")],
  region "FM" [("name", "MICRONESIA (Federated State of)"), ("lang", "en"), ("languages", "en"),
    ("fmt", "%N%n%O%n%A%n%C %S %Z"), ("require", "ACSZ"), ("upper", "ACNOS"),
    ("state_name_type", "state"), ("zip_name_type", "zip")],
  region "FO" [("name", "FAROE ISLANDS"), ("fmt", "%N%n%O%n%A%nFO%Z %C"), ("postprefix", "FO")],
  region "FR" [("name", "FRANCE"), ("fmt", "%O%n%N%n%A%n%Z %C"), ("require", "ACZ"),
    ("upper", "CX")],
  region "GA" [("name", "GABON")],
  labelled "GB" [("name", "UNITED KINGDOM"), ("fmt", "%N%n%O%n%A%n%C%n%Z"), ("require", "ACZ"),
    ("upper", "CZ"), ("locality_name_type", "post_town")]
    [message "LL" "MSG_DEPENDENT_LOCALITY_LABEL", labelIn "en" "Z" "Postcode"],
  region "GD" [("name", "GRENADA (WEST INDIES)")],
  region "GE" [("name", "GEORGIA"), ("fmt", "%N%n%O%n%A%n%Z %C")],
  region "GF" [("name", "FRENCH GUIANA"), ("fmt", "%O%n%N%n%A%n%Z %C %X"), ("require", "ACZ"),
    ("upper", "ACX")],
  region "GG" [("name", "CHANNEL ISLANDS"), ("fmt", "%N%n%O%n%A%n%C%nGUERNSEY%n%Z"),
    ("require", "ACZ"), ("upper", "CZ")],
  region "GH" [("name", "GHANA")],
  region "GI" [("name", "GIBRALTAR"), ("fmt", "%N%n%O%n%A%nGIBRALTAR%n%Z"), ("require", "A")],
  region "GL" [("name", "GREENLAND"), ("fmt", "%N%n%O%n%A%n%Z %C"), ("require", "ACZ")],
  region "GM" [("name", "GAMBIA")],
  region "GN" [("name", "GUINEA"), ("fmt", "%N%n%O%n%Z %A %C")],
  region "GP" [("name", "GUADELOUPE"), ("fmt", "%O%n%N%n%A%n%Z %C %X"), ("require", "ACZ"),
    ("upper", "ACX")],
  region "GQ" [("name", "EQUATORIAL GUINEA")],
  region "GR" [("name", "GREECE"), ("fmt", "%N%n%O%n%A%n%Z %C"), ("require", "ACZ")],
  region "GS" [("name", "SOUTH GEORGIA"), ("fmt", "%N%n%O%n%A%n%n%C%n%Z"), ("require", "ACZ"),
    ("upper", "CZ")],
  region "GT" [("name", "GUATEMALA"), ("fmt", "%N%n%O%n%A%n%Z- %C")],
  region "GU" [("name", "GUAM"), ("fmt", "%N%n%O%n%A%n%C %Z"), ("require", "ACZ"),
    ("upper", "ACNO"), ("zip_name_type", "zip")],
  region "GW" [("name", "GUINEA-BISSAU"), ("fmt", "%N%n%O%n%A%n%Z %C")],
  region "GY" [("name", "GUYANA")],
  labelled "HK" [("name", "HONG KONG"), ("lang", "zh-Hant"), ("languages", "zh-Hant~en"),
    ("lfmt", "%N%n%O%n%A%n%C%n%S"), ("fmt", "%S%n%C%n%A%n%O%n%N"), ("require", "AS"),
    ("upper", "S"), ("locality_name_type", "district"), ("state_name_type", "area"),
    ("width_overrides", "%S:S%C:L")]
    [labelIn "zh" "C" "地区", labelIn "zh-HK" "C" "地區", labelIn "zh-TW" "C" "地區",
     labelIn "en" "CS" "Flat / Room", labelIn "zh-HK" "CS" "單位編號", labelIn "zh-HK" "BG" "大廈名稱"],
  region "HM" [("name", "HEARD AND MCDONALD ISLANDS"), ("fmt", "%O%n%N%n%A%n%C %S %Z"),
    ("upper", "CS")],
  region "HN" [("name", "HONDURAS"), ("lang", "es"), ("languages", "es"),
    ("fmt", "%N%n%O%n%A%n%C, %S%n%Z"), ("require", "ACS"), ("state_name_type", "department")],
  region "HR" [("name", "CROATIA"), ("fmt", "%N%n%O%n%A%nHR-%Z %C"), ("postprefix", "HR-")],
  region "HT" [("name", "HAITI"), ("fmt", "%N%n%O%n%A%nHT%Z %C"), ("postprefix", "HT")],
  region "HU" [("name", "HUNGARY (Rep.)"), ("fmt", "%N%n%O%n%C%n%A%n%Z"), ("require", "ACZ"),
    ("upper", "ACNO")],
  labelled "ID" [("name", "INDONESIA"), ("lang", "id"), ("languages", "id"),
    ("fmt", "%N%n%O%n%A%n%C%n%S %Z"), ("require", "AS")]
    [label "A7" "RT", label "A6" "RW", label "A5" "Dusun/Banjar", label "BI" "Blok",
     message "A4" "MSG_VILLAGE", label "A3" "Kecamatan", label "S1" "Pasar"],
  labelled "IE" [("name", "IRELAND"), ("lang", "en"), ("languages", "en"),
    ("fmt", "%N%n%O%n%A%n%D%n%C%n%S%n%Z"), ("sublocality_name_type", "townland"),
    ("state_name_type", "county"), ("zip_name_type", "eircode")]
    [labelIn "zh" "S" "郡"],
  region "IL" [("name", "ISRAEL"), ("fmt", "%N%n%O%n%A%n%C %Z")],
  region "IM" [("name", "ISLE OF MAN"), ("fmt", "%N%n%O%n%A%n%C%n%Z"), ("require", "ACZ"),
    ("upper", "CZ")],
  labelled "IN" [("name", "INDIA"), ("lang", "en"), ("languages", "en~hi"),
    ("fmt", "%N%n%O%n%A%n%T%n%F%n%L%n%C %Z%n%S"), ("require", "ACSZ"), ("state_name_type", "state"),
    ("zip_name_type", "pin")]
    [label "S1" "Sublocality 1", label "S2" "Sublocality 2", label "S3" "Sublocality 3",
     label "S4" "Sublocality 4"],
  region "IO" [("name", "BRITISH INDIAN OCEAN TERRITORY"), ("fmt", "%N%n%O%n%A%n%C%n%Z"),
    ("require", "ACZ"), ("upper", "CZ")],
  region "IQ" [("name", "IRAQ"), ("lang", "ar"), ("languages", "ar"),
    ("fmt", "%O%n%N%n%A%n%C, %S%n%Z"), ("require", "ACS"), ("upper", "CS")],
  region "IR" [("name", "IRAN"), ("lang", "fa"), ("languages", "fa"),
    ("fmt", "%O%n%N%n%S%n%C, %D%n%A%n%Z"), ("sublocality_name_type", "neighborhood")],
  region "IS" [("name", "ICELAND"), ("fmt", "%N%n%O%n%A%n%Z %C")],
  region "IT" [("name", "ITALY"), ("lang", "it"), ("languages", "it"),
    ("fmt", "%N%n%O%n%A%n%Z %C %S"), ("require", "ACSZ"), ("upper", "CS"),
    ("width_overrides", "%S:S")],
  region "JE" [("name", "CHANNEL ISLANDS"), ("fmt", "%N%n%O%n%A%n%C%nJERSEY%n%Z"),
    ("require", "ACZ"), ("upper", "CZ")],
  region "JM" [("name", "JAMAICA"), ("lang", "en"), ("languages", "en"),
    ("fmt", "%N%n%O%n%A%n%C%n%S %X"), ("require", "ACS"), ("state_name_type", "parish")],
  region "JO" [("name", "JORDAN"), ("fmt", "%N%n%O%n%A%n%C %Z")],
  region "JP" [("name", "JAPAN"), ("lang", "ja"), ("languages", "ja"),
    ("lfmt", "%N%n%O%n%A, %S%n%Z"), ("fmt", "〒%Z%n%S%n%A%n%O%n%N"), ("require", "ASZ"),
    ("upper", "S"), ("state_name_type", "prefecture"), ("width_overrides", "%S:S")],
  region "KE" [("name", "KENYA"), ("fmt", "%N%n%O%n%A%n%C%n%Z")],
  region "KG" [("name", "KYRGYZSTAN"), ("fmt", "%N%n%O%n%A%n%Z %C")],
  region "KH" [("name", "CAMBODIA"), ("fmt", "%N%n%O%n%A%n%C %Z")],
  region "KI" [("name", "KIRIBATI"), ("fmt", "%N%n%O%n%A%n%S%n%C"), ("upper", "ACNOS"),
    ("state_name_type", "island")],
  region "KM" [("name", "COMOROS"), ("upper", "AC")],
  region "KN" [("name", "SAINT KITTS AND NEVIS"), ("lang", "en"), ("languages", "en"),
    ("fmt", "%N%n%O%n%A%n%C, %S"), ("require", "ACS"), ("state_name_type", "island")],
  region "KP" [("name", "NORTH KOREA"), ("lang", "ko"), ("languages", "ko"),
    ("lfmt", "%N%n%O%n%A%n%C%n%S, %Z"), ("fmt", "%Z%n%S%n%C%n%A%n%O%n%N")],
  labelled "KR" [("name", "SOUTH KOREA"), ("lang", "ko"), ("languages", "ko"),
    ("lfmt", "%N%n%O%n%A%n%D%n%C%n%S%n%Z"), ("fmt", "%S %C%D%n%A%n%O%n%N%n%Z"), ("require", "ACSZ"),
    ("upper", "Z"), ("sublocality_name_type", "district"), ("state_name_type", "do_si")]
    [message "BI" "MSG_STREET_NUMBER", message "S2" "MSG_NEIGHBORHOOD",
     message "S4" "MSG_STREET_NAME"],
  region "KW" [("name", "KUWAIT"), ("fmt", "%N%n%O%n%A%n%Z %C")],
  region "KY" [("name", "CAYMAN ISLANDS"), ("lang", "en"), ("languages", "en"),
    ("fmt", "%N%n%O%n%A%n%S %Z"), ("require", "AS"), ("state_name_type", "island")],
  region "KZ" [("name", "KAZAKHSTAN"), ("lang", "kk"), ("languages", "kk~ru"),
    ("fmt", "%Z%n%S%n%C%n%A%n%O%n%N")],
  region "LA" [("name", "LAO (PEOPLE'S DEM. REP.)"), ("fmt", "%N%n%O%n%A%n%Z %C")],
  region "LB" [("name", "LEBANON"), ("fmt", "%N%n%O%n%A%n%C %Z")],
  region "LC" [("name", "SAINT LUCIA")],
  region "LI" [("name", "LIECHTENSTEIN"), ("fmt", "%O%n%N%n%A%nFL-%Z %C"), ("require", "ACZ"),
    ("postprefix", "FL-")],
  region "LK" [("name", "SRI LANKA"), ("fmt", "%N%n%O%n%A%n%C%n%Z")],
  region "LR" [("name", "LIBERIA"), ("fmt", "%N%n%O%n%A%n%Z %C")],
  region "LS" [("name", "LESOTHO"), ("fmt", "%N%n%O%n%A%n%C %Z")],
  region "LT" [("name", "LITHUANIA"), ("fmt", "%O%n%N%n%A%nLT-%Z %C %S"), ("require", "ACZ"),
    ("postprefix", "LT-")],
  region "LU" [("name", "LUXEMBOURG"), ("fmt", "%O%n%N%n%A%nL-%Z %C"), ("require", "ACZ"),
    ("postprefix", "L-")],
  labelled "LV" [("name", "LATVIA"), ("fmt", "%N%n%O%n%A%n%S%n%C, %Z"), ("require", "ACZ")]
    [labelIn "lv" "C" "Novads", labelIn "en" "C" "Municipality", labelIn "lv" "S" "Pagasts/pilsēta",
     labelIn "en" "S" "Parish/town"],
  region "LY" [("name", "LIBYA")],
  region "MA" [("name", "MOROCCO"), ("fmt", "%N%n%O%n%A%n%Z %C")],
  region "MC" [("name", "MONACO"), ("fmt", "%N%n%O%n%A%nMC-%Z %C %X"), ("postprefix", "MC-")],
  region "MD" [("name", "Rep. MOLDOVA"), ("fmt", "%N%n%O%n%A%nMD-%Z %C"), ("postprefix", "MD-")],
  region "ME" [("name", "MONTENEGRO"), ("fmt", "%N%n%O%n%A%n%Z %C")],
  region "MF" [("name", "SAINT MARTIN"), ("fmt", "%O%n%N%n%A%n%Z %C %X"), ("require", "ACZ"),
    ("upper", "ACX")],
  region "MG" [("name", "MADAGASCAR"), ("fmt", "%N%n%O%n%A%n%Z %C")],
  region "MH" [("name", "MARSHALL ISLANDS"), ("fmt", "%N%n%O%n%A%n%C %S %Z"), ("require", "ACSZ"),
    ("upper", "ACNOS"), ("state_name_type", "state"), ("zip_name_type", "zip")],
  region "MK" [("name", "MACEDONIA"), ("fmt", "%N%n%O%n%A%n%Z %C")],
  region "ML" [("name", "MALI")],
  region "MM" [("name", "MYANMAR"), ("fmt", "%N%n%O%n%A%n%C, %Z")],
  region "MN" [("name", "MONGOLIA"), ("lang", "mn"), ("languages", "mn"),
    ("fmt", "%N%n%O%n%A%n%C%n%S %Z")],
  region "MO" [("name", "MACAO"), ("lang", "zh-Hant"), ("languages", "zh-Hant"),
    ("lfmt", "%N%n%O%n%A"), ("fmt", "%A%n%O%n%N"), ("require", "A")],
  region "MP" [("name", "NORTHERN MARIANA ISLANDS"), ("fmt", "%N%n%O%n%A%n%C %S %Z"),
    ("require", "ACSZ"), ("upper", "ACNOS"), ("state_name_type", "state"),
    ("zip_name_type", "zip")],
  region "MQ" [("name", "MARTINIQUE"), ("fmt", "%O%n%N%n%A%n%Z %C %X"), ("require", "ACZ"),
    ("upper", "ACX")],
  region "MR" [("name", "MAURITANIA"), ("upper", "AC")],
  region "MS" [("name", "MONTSERRAT")],
  region "MT" [("name", "MALTA"), ("fmt", "%N%n%O%n%A%n%C %Z"), ("upper", "CZ")],
  region "MU" [("name", "MAURITIUS"), ("fmt", "%N%n%O%n%A%n%Z%n%C"), ("upper", "CZ")],
  region "MV" [("name", "MALDIVES"), ("fmt", "%N%n%O%n%A%n%C %Z")],
  region "MW" [("name", "MALAWI"), ("fmt", "%N%n%O%n%A%n%C %X")],
  labelled "MX" [("name", "MEXICO"), ("lang", "es"), ("languages", "es"),
    ("fmt", "%N%n%O%n%A%n%D%n%Z %C, %S"), ("require", "ACSZ"), ("upper", "CSZ"),
    ("sublocality_name_type", "neighborhood"), ("state_name_type", "state"),
    ("width_overrides", "%S:S")]
    [label "S1" "Delegación", label "S2" "Supermanzana", label "S3" "Manzana", label "LP" "Lote"],
  region "MY" [("name", "MALAYSIA"), ("lang", "ms"), ("languages", "ms"),
    ("fmt", "%N%n%O%n%A%n%D%n%Z %C%n%S"), ("require", "ACZ"), ("upper", "CS"),
    ("sublocality_name_type", "village_township"), ("state_name_type", "state")],
  region "MZ" [("name", "MOZAMBIQUE"), ("lang", "pt"), ("languages", "pt"),
    ("fmt", "%N%n%O%n%A%n%Z %C%S")],
  region "NA" [("name", "NAMIBIA"), ("fmt", "%N%n%O%n%A%n%C%n%Z")],
  region "NC" [("name", "NEW CALEDONIA"), ("fmt", "%O%n%N%n%A%n%Z %C %X"), ("require", "ACZ"),
    ("upper", "ACX")],
  region "NE" [("name", "NIGER"), ("fmt", "%N%n%O%n%A%n%Z %C")],
  region "NF" [("name", "NORFOLK ISLAND"), ("fmt", "%O%n%N%n%A%n%C %S %Z"), ("upper", "CS")],
  labelled "NG" [("name", "NIGERIA"), ("lang", "en"), ("languages", "en"),
    ("fmt", "%N%n%O%n%A%n%D%n%C %Z%n%S"), ("upper", "CS"), ("state_name_type", "state")]
    [labelIn "en" "D" "Local government area"],
  region "NI" [("name", "NICARAGUA"), ("lang", "es"), ("languages", "es"),
    ("fmt", "%N%n%O%n%A%n%Z%n%C, %S"), ("upper", "CS"), ("state_name_type", "department")],
  region "NL" [("name", "NETHERLANDS"), ("fmt", "%O%n%N%n%A%n%Z %C"), ("require", "ACZ")],
  region "NO" [("name", "NORWAY"), ("fmt", "%N%n%O%n%A%n%Z %C"), ("require", "ACZ"),
    ("locality_name_type", "post_town")],
  region "NP" [("name", "NEPAL"), ("fmt", "%N%n%O%n%A%n%C %Z")],
  region "NR" [("name", "NAURU CENTRAL PACIFIC"), ("lang", "en"), ("languages", "en"),
    ("fmt", "%N%n%O%n%A%n%S"), ("require", "AS"), ("state_name_type", "district")],
  region "NU" [("name", "NIUE")],
  region "NZ" [("name", "NEW ZEALAND"), ("fmt", "%N%n%O%n%A%n%D%n%C %Z"), ("require", "ACZ")],
  region "OM" [("name", "OMAN"), ("fmt", "%N%n%O%n%A%n%Z%n%C")],
  region "PA" [("name", "PANAMA (REP.)"), ("lang", "es"), ("languages", "es"),
    ("fmt", "%N%n%O%n%A%n%C%n%S"), ("upper", "CS")],
  region "PE" [("name", "PERU"), ("lang", "es"), ("languages", "es"),
    ("fmt", "%N%n%O%n%A%n%C %Z%n%S"), ("locality_name_type", "district")],
  region "PF" [("name", "FRENCH POLYNESIA"), ("fmt", "%N%n%O%n%A%n%Z %C %S"), ("require", "ACSZ"),
    ("upper", "CS"), ("state_name_type", "island")],
  region "PG" [("name", "PAPUA NEW GUINEA"), ("lang", "tpi"), ("languages", "tpi~en~ho"),
    ("fmt", "%N%n%O%n%A%n%C %Z %S"), ("require", "ACS")],
  region "PH" [("name", "PHILIPPINES"), ("lang", "en"), ("languages", "en"),
    ("fmt", "%N%n%O%n%A%n%D, %C%n%Z %S")],
  labelled "PK" [("name", "PAKISTAN"), ("fmt", "%N%n%O%n%A%n%D%n%C-%Z")]
    [labelIn "en" "D" "Sector"],
  region "PL" [("name", "POLAND"), ("fmt", "%N%n%O%n%A%n%Z %C"), ("require", "ACZ")],
  region "PM" [("name", "ST. PIERRE AND MIQUELON"), ("fmt", "%O%n%N%n%A%n%Z %C %X"),
    ("require", "ACZ"), ("upper", "ACX")],
  region "PN" [("name", "PITCAIRN"), ("fmt", "%N%n%O%n%A%n%C%n%Z"), ("require", "ACZ"),
    ("upper", "CZ")],
  region "PR" [("name", "PUERTO RICO"), ("fmt", "%N%n%O%n%A%n%C PR %Z"), ("require", "ACZ"),
    ("upper", "ACNO"), ("zip_name_type", "zip"), ("postprefix", "PR ")],
  region "PS" [("name", "PALESTINIAN TERRITORY")],
  region "PT" [("name", "PORTUGAL"), ("fmt", "%N%n%O%n%A%n%Z %C"), ("require", "ACZ")],
  region "PW" [("name", "PALAU"), ("lang", "pau"), ("languages", "pau~en"),
    ("fmt", "%N%n%O%n%A%n%C %S %Z"), ("require", "ACSZ"), ("upper", "ACNOS"),
    ("state_name_type", "state"), ("zip_name_type", "zip")],
  region "PY" [("name", "PARAGUAY"), ("fmt", "%N%n%O%n%A%n%Z %C")],
  region "QA" [("name", "QATAR"), ("upper", "AC")],
  region "RE" [("name", "REUNION"), ("fmt", "%O%n%N%n%A%n%Z %C %X"), ("require", "ACZ"),
    ("upper", "ACX")],
  labelled "RO" [("name", "ROMANIA"), ("lang", "ro"), ("languages", "ro"),
    ("fmt", "%N%n%O%n%A%n%Z %S %C"), ("require", "ACZ"), ("upper", "AC")]
    [labelIn "ro" "C" "Județe/sectoare", labelIn "en" "C" "County/sector",
     labelIn "ro" "S" "Municipiu/oraș/comună", labelIn "en" "S" "Municipality/city/town/commune"],
  region "RS" [("name", "REPUBLIC OF SERBIA"), ("fmt", "%N%n%O%n%A%n%Z %C")],
  labelled "RU" [("name", "RUSSIAN FEDERATION"), ("lang", "ru"), ("languages", "ru"),
    ("lfmt", "%N%n%O%n%A%n%C%n%S%n%Z"), ("fmt", "%N%n%O%n%A%n%C%n%S%n%Z"), ("require", "ACSZ"),
    ("upper", "AC"), ("state_name_type", "oblast")]
    [message "CS" "MSG_OFFICE_UNIT_NUMBER"],
  region "RW" [("name", "RWANDA"), ("upper", "AC")],
  region "SA" [("name", "SAUDI ARABIA"), ("fmt", "%N%n%O%n%A%n%C %Z")],
  region "SB" [("name", "SOLOMON ISLANDS")],
  region "SC" [("name", "SEYCHELLES"), ("fmt", "%N%n%O%n%A%n%C%n%S"), ("upper", "S"),
    ("state_name_type", "island")],
  region "SD" [("name", "SUDAN"), ("fmt", "%N%n%O%n%A%n%C%n%Z"),
    ("locality_name_type", "district")],
  region "SE" [("name", "SWEDEN"), ("fmt", "%O%n%N%n%A%nSE-%Z %C"), ("require", "ACZ"),
    ("locality_name_type", "post_town"), ("postprefix", "SE-")],
  region "SG" [("name", "REP. OF SINGAPORE"), ("fmt", "%N%n%O%n%A%nSINGAPORE %Z"),
    ("require", "AZ")],
  region "SH" [("name", "SAINT HELENA"), ("fmt", "%N%n%O%n%A%n%C%n%Z"), ("require", "ACZ"),
    ("upper", "CZ")],
  region "SI" [("name", "SLOVENIA"), ("fmt", "%N%n%O%n%A%nSI-%Z %C"), ("postprefix", "SI-")],
  region "SJ" [("name", "SVALBARD AND JAN MAYEN ISLANDS"), ("fmt", "%N%n%O%n%A%n%Z %C"),
    ("require", "ACZ"), ("locality_name_type", "post_town")],
  labelled "SK" [("name", "SLOVAKIA"), ("fmt", "%N%n%O%n%A%n%Z %C"), ("require", "ACZ")]
    [labelIn "cs" "NH" "Obecní část", labelIn "sk" "NH" "Obecný časť", label "BI" "Descriptive No.",
     labelIn "cs" "BI" "Popisné číslo", labelIn "sk" "BI" "Súpisné číslo",
     label "SN" "Orientation No.", labelIn "cs" "SN" "Orientační číslo",
     labelIn "sk" "SN" "Orientačné číslo", label "S1" "City District",
     labelIn "cs" "S1" "Městská část", labelIn "sk" "S1" "Mestská časť"],
  region "SL" [("name", "SIERRA LEONE")],
  region "SM" [("name", "SAN MARINO"), ("fmt", "%N%n%O%n%A%n%Z %C"), ("require", "AZ")],
  region "SN" [("name", "SENEGAL"), ("fmt", "%N%n%O%n%A%n%Z %C")],
  region "SO" [("name", "SOMALIA"), ("lang", "so"), ("languages", "so"),
    ("fmt", "%N%n%O%n%A%n%C, %S %Z"), ("require", "ACS"), ("upper", "ACS")],
  region "SR" [("name", "SURINAME"), ("lang", "nl"), ("languages", "nl"),
    ("fmt", "%N%n%O%n%A%n%C%n%S"), ("upper", "AS")],
  region "SS" [("name", "SOUTH SUDAN")],
  region "ST" [("name", "SAO TOME AND PRINCIPE")],
  region "SV" [("name", "EL SALVADOR"), ("lang", "es"), ("languages", "es"),
    ("fmt", "%N%n%O%n%A%n%Z-%C%n%S"), ("require", "ACS"), ("upper", "CSZ")],
  region "SX" [("name", "SINT MAARTEN")],
  region "SY" [("name", "SYRIA"), ("locality_name_type", "district")],
  region "SZ" [("name", "SWAZILAND"), ("fmt", "%N%n%O%n%A%n%C%n%Z"), ("upper", "ACZ")],
  region "TA" [("name", "TRISTAN DA CUNHA"), ("fmt", "%N%n%O%n%A%n%C%n%Z")],
  region "TC" [("name", "TURKS AND CAICOS ISLANDS"), ("fmt", "%N%n%O%n%A%n%C%n%Z"),
    ("require", "ACZ"), ("upper", "CZ")],
  region "TD" [("name", "CHAD")],
  region "TF" [("name", "FRENCH SOUTHERN TERRITORIES")],
  region "TG" [("name", "TOGO")],
  labelled "TH" [("name", "THAILAND"), ("lang", "th"), ("languages", "th"),
    ("lfmt", "%N%n%O%n%A%n%D, %C%n%S %Z"), ("fmt", "%N%n%O%n%A%n%D %C%n%S %Z"), ("upper", "S")]
    [label "C" "Amphoe / Khet", labelIn "th" "C" "อำเภอ/เขต", labelIn "ja" "C" "アムプー/ケート",
     labelIn "ko" "C" "암프/켓", labelIn "zh" "C" "郡/区", labelIn "zh-TW" "C" "郡/區",
     labelIn "zh-HK" "C" "郡/區", label "D" "Tambon / Khwaeng", labelIn "th" "D" "ตำบล/แขวง",
     labelIn "ja" "D" "タムボン/クウェーン", labelIn "ko" "D" "땀본/쾡", labelIn "zh" "D" "区/小区",
     labelIn "zh-TW" "D" "區/小區", labelIn "zh-HK" "D" "區/小區"],
  region "TJ" [("name", "TAJIKISTAN"), ("fmt", "%N%n%O%n%A%n%Z %C")],
  region "TK" [("name", "TOKELAU")],
  region "TL" [("name", "TIMOR-LESTE")],
  region "TM" [("name", "TURKMENISTAN"), ("fmt", "%N%n%O%n%A%n%Z %C")],
  region "TN" [("name", "TUNISIA"), ("fmt", "%N%n%O%n%A%n%Z %C")],
  region "TO" [("name", "TONGA")],
  labelled "TR" [("name", "TURKEY"), ("lang", "tr"), ("languages", "tr"),
    ("fmt", "%N%n%O%n%A%n%Z %C/%S"), ("require", "ACZ"), ("locality_name_type", "district")]
    [labelIn "tr" "C" "İlçe", labelIn "tr" "S" "İl", message "A4" "MSG_NEIGHBORHOOD"],
  region "TT" [("name", "TRINIDAD AND TOBAGO"), ("fmt", "%N%n%O%n%A%n%C%n%Z")],
  region "TV" [("name", "TUVALU"), ("lang", "tyv"), ("languages", "tyv"),
    ("fmt", "%N%n%O%n%A%n%C%n%S"), ("upper", "ACS"), ("state_name_type", "island")],
  region "TW" [("name", "TAIWAN"), ("lang", "zh-Hant"), ("languages", "zh-Hant"),
    ("lfmt", "%N%n%O%n%A%n%C, %S %Z"), ("fmt", "%Z%n%S%C%n%A%n%O%n%N"), ("require", "ACSZ"),
    ("locality_name_type", "district"), ("state_name_type", "county")],
  region "TZ" [("name", "TANZANIA (UNITED REP.)"), ("fmt", "%N%n%O%n%A%n%Z %C")],
  labelled "UA" [("name", "UKRAINE"), ("lang", "uk"), ("languages", "uk"),
    ("lfmt", "%N%n%O%n%A%n%C%n%S%n%Z"), ("fmt", "%N%n%O%n%A%n%C%n%S%n%Z"), ("require", "ACZ"),
    ("state_name_type", "oblast")]
    [message "CS" "MSG_OFFICE_UNIT_NUMBER"],
  region "UG" [("name", "UGANDA")],
  region "UM" [("name", "UNITED STATES MINOR OUTLYING ISLANDS"), ("fmt", "%N%n%O%n%A%n%C %S %Z"),
    ("require", "ACS"), ("upper", "ACNOS"), ("state_name_type", "state"), ("zip_name_type", "zip")],
  region "US" [("name", "UNITED STATES"), ("lang", "en"), ("languages", "en"),
    ("fmt", "%N%n%O%n%A%n%C, %S %Z"), ("require", "ACSZ"), ("upper", "CS"),
    ("state_name_type", "state"), ("zip_name_type", "zip"), ("width_overrides", "%S:S")],
  region "UY" [("name", "URUGUAY"), ("lang", "es"), ("languages", "es"),
    ("fmt", "%N%n%O%n%A%n%Z %C %S"), ("upper", "CS")],
  region "UZ" [("name", "UZBEKISTAN"), ("lang", "uz"), ("languages", "uz~ru"),
    ("fmt", "%N%n%O%n%A%n%Z %C%n%S"), ("upper", "CS")],
  region "VA" [("name", "VATICAN"), ("fmt", "%N%n%O%n%A%n%Z %C")],
  region "VC" [("name", "SAINT VINCENT AND THE GRENADINES (ANTILLES)"),
    ("fmt", "%N%n%O%n%A%n%C %Z")],
  region "VE" [("name", "VENEZUELA"), ("lang", "es"), ("languages", "es"),
    ("fmt", "%N%n%O%n%A%n%C %Z, %S"), ("require", "ACS"), ("upper", "CS"),
    ("state_name_type", "state")],
  region "VG" [("name", "VIRGIN ISLANDS (BRITISH)"), ("fmt", "%N%n%O%n%A%n%C%n%Z"),
    ("require", "A")],
  region "VI" [("name", "VIRGIN ISLANDS (U.S.)"), ("fmt", "%N%n%O%n%A%n%C %S %Z"),
    ("require", "ACSZ"), ("upper", "ACNOS"), ("state_name_type", "state"),
    ("zip_name_type", "zip")],
  labelled "VN" [("name", "VIET NAM"), ("lang", "vi"), ("languages", "vi"),
    ("lfmt", "%N%n%O%n%A%n%C%n%S %Z"), ("fmt", "%N%n%O%n%A%n%C%n%S %Z")]
    [label "S1" "Ward/Township/Commune", labelIn "vi" "S1" "Phường/Thị trấn/Xã"],
  region "VU" [("name", "VANUATU")],
  region "WF" [("name", "WALLIS AND FUTUNA ISLANDS"), ("fmt", "%O%n%N%n%A%n%Z %C %X"),
    ("require", "ACZ"), ("upper", "ACX")],
  region "WS" [("name", "SAMOA")],
  region "XK" [("name", "KOSOVO"), ("fmt", "%N%n%O%n%A%n%Z %C")],
  region "YE" [("name", "YEMEN")],
  region "YT" [("name", "MAYOTTE"), ("fmt", "%O%n%N%n%A%n%Z %C %X"), ("require", "ACZ"),
    ("upper", "ACX")],
  region "ZA" [("name", "SOUTH AFRICA"), ("fmt", "%N%n%O%n%A%n%D%n%C%n%Z"), ("require", "ACZ")],
  region "ZM" [("name", "ZAMBIA"), ("fmt", "%N%n%O%n%A%n%Z %C")],
  region "ZW" [("name", "ZIMBABWE")],
  region "ZZ" [("fmt", "%N%n%O%n%A%n%C"), ("require", "AC"), ("upper", "C"),
    ("sublocality_name_type", "suburb"), ("locality_name_type", "city"),
    ("state_name_type", "province"), ("zip_name_type", "postal")]]

def texts : Array (Text × Text) :=
  (records.map fun (code, record) => (code, Json.compact (.object record))).toArray

def text? (code : Text) : Option Text := Text.search texts code

def codes : List Text := texts.toList.map Prod.fst

theorem codes_eq : codes = records.map Prod.fst := by
  simp [codes, texts]

end Postal.Bundled

namespace Postal.RegionTable

def bundled : RegionTable := ofRecords Bundled.records

end Postal.RegionTable
