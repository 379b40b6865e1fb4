import Folio.Unicode.LineClass
import Folio.Unicode.RangeTable

/-!
# The line breaking class of each character

The classes are listed one by one; codes in no list are unassigned.
-/

namespace Folio.LineClass

def ambiguousRanges : List String :=
  [
    "00A7-00A8 00AA 00B2-00B3 00B6-00BA 00BC-00BE 00D7 00F7 02C7 02C9-02CB 02CD 02D0",
    "02D8-02DB 02DD 2015-2016 2020-2021 203B 2074 207F 2081-2084 2105 2113 2121-2122 212B",
    "2154-2155 215B 215E 2160-216B 2170-2179 2189 2190-2199 21D2 21D4 2200 2202-2203",
    "2207-2208 220B 220F 2211 2215 221A 221D-2220 2223 2225 2227-222C 222E 2234-2237",
    "223C-223D 2248 224C 2252 2260-2261 2264-2267 226A-226B 226E-226F 2282-2283 2286-2287",
    "2295 2299 22A5 22BF 2312 2460-24FE 2500-254B 2550-2574 2580-258F 2592-2595 25A0-25A1",
    "25A3-25A9 25B2-25B3 25B6-25B7 25BC-25BD 25C0-25C1 25C6-25C8 25CB 25CE-25D1 25E2-25E5",
    "25EF 2605-2606 2609 260E-260F 2616-2617 2640 2642 2660-2661 2663-2665 2667 2669-266A",
    "266C-266D 266F 269E-269F 26C9-26CC 26D2 26D5-26D7 26DA-26DB 26DD-26DE 26E3 26E8-26E9",
    "26EB-26F0 26F6 26FB-26FC 2757 2776-2793 2B55-2B59 3248-324F FFFD 1F100-1F10C",
    "1F110-1F12D 1F130-1F169 1F170-1F1AC"]

def aksaraRanges : List String :=
  [
    "1B05-1B33 1B45-1B4C A984-A9B2 11005-11037 11071-11072 11075 11305-1130C 1130F-11310",
    "11313-11328 1132A-11330 11332-11333 11335-11339 11360-11361 11900-11906 11909",
    "1190C-11913 11915-11916 11918-1192F 11F04-11F10 11F12-11F33"]

def alphabeticRanges : List String :=
  [
    "0023 0026 002A 003C-003E 0040-005A 005E-007A 007E 00A6 00A9 00AC 00AE-00AF 00B5",
    "00C0-00D6 00D8-00F6 00F8-02C6 02CE-02CF 02D1-02D7 02DC 02DE 02E0-02FF 0370-0377",
    "037A-037D 037F 0384-038A 038C 038E-03A1 03A3-0482 048A-052F 0531-0556 0559-0588",
    "058D-058E 05C0 05C3 05F3-05F4 0606-0608 060E-060F 0620-064A 066D-066F 0671-06D3 06D5",
    "06DE 06E5-06E6 06E9 06EE-06EF 06FA-070D 070F-0710 0712-072F 074D-07A5 07B1 07CA-07EA",
    "07F4-07F7 07FA 0800-0815 081A 0824 0828 0830-083E 0840-0858 085E 0860-086A 0870-088E",
    "08A0-08C9 0904-0939 093D 0950 0958-0961 0970-0980 0985-098C 098F-0990 0993-09A8",
    "09AA-09B0 09B2 09B6-09B9 09BD 09CE 09DC-09DD 09DF-09E1 09F0-09F1 09F4-09F8 09FA",
    "09FC-09FD 0A05-0A0A 0A0F-0A10 0A13-0A28 0A2A-0A30 0A32-0A33 0A35-0A36 0A38-0A39",
    "0A59-0A5C 0A5E 0A72-0A74 0A76 0A85-0A8D 0A8F-0A91 0A93-0AA8 0AAA-0AB0 0AB2-0AB3",
    "0AB5-0AB9 0ABD 0AD0 0AE0-0AE1 0AF0 0AF9 0B05-0B0C 0B0F-0B10 0B13-0B28 0B2A-0B30",
    "0B32-0B33 0B35-0B39 0B3D 0B5C-0B5D 0B5F-0B61 0B70-0B77 0B83 0B85-0B8A 0B8E-0B90",
    "0B92-0B95 0B99-0B9A 0B9C 0B9E-0B9F 0BA3-0BA4 0BA8-0BAA 0BAE-0BB9 0BD0 0BF0-0BF8 0BFA",
    "0C05-0C0C 0C0E-0C10 0C12-0C28 0C2A-0C39 0C3D 0C58-0C5A 0C5D 0C60-0C61 0C78-0C80",
    "0C85-0C8C 0C8E-0C90 0C92-0CA8 0CAA-0CB3 0CB5-0CB9 0CBD 0CDD-0CDE 0CE0-0CE1 0CF1-0CF2",
    "0D04-0D0C 0D0E-0D10 0D12-0D3A 0D3D 0D4E-0D4F 0D54-0D56 0D58-0D61 0D70-0D78 0D7A-0D7F",
    "0D85-0D96 0D9A-0DB1 0DB3-0DBB 0DBD 0DC0-0DC6 0DF4 0E4F 0F00 0F05 0F13 0F15-0F17",
    "0F1A-0F1F 0F2A-0F33 0F36 0F38 0F40-0F47 0F49-0F6C 0F88-0F8C 0FC0-0FC5 0FC7-0FCC",
    "0FCE-0FCF 0FD4-0FD8 104C-104F 10A0-10C5 10C7 10CD 10D0-10FF 1200-1248 124A-124D",
    "1250-1256 1258 125A-125D 1260-1288 128A-128D 1290-12B0 12B2-12B5 12B8-12BE 12C0",
    "12C2-12C5 12C8-12D6 12D8-1310 1312-1315 1318-135A 1360 1362-137C 1380-1399 13A0-13F5",
    "13F8-13FD 1401-167F 1681-169A 16A0-16EA 16EE-16F8 1700-1711 171F-1731 1740-1751",
    "1760-176C 176E-1770 17D9 17F0-17F9 1800-1801 1807 180A 1820-1878 1880-1884 1887-18A8",
    "18AA 18B0-18F5 1900-191E 1940 19E0-1A16 1A1E-1A1F 1B83-1BA0 1BAE-1BAF 1BBA-1BBF",
    "1BFC-1C23 1C4D-1C4F 1C5A-1C7D 1C80-1C88 1C90-1CBA 1CBD-1CC7 1CD3 1CE9-1CEC 1CEE-1CF3",
    "1CF5-1CF6 1CFA 1D00-1DBF 1E00-1F15 1F18-1F1D 1F20-1F45 1F48-1F4D 1F50-1F57 1F59 1F5B",
    "1F5D 1F5F-1F7D 1F80-1FB4 1FB6-1FC4 1FC6-1FD3 1FD6-1FDB 1FDD-1FEF 1FF2-1FF4 1FF6-1FFC",
    "1FFE 2017 2022-2023 2038 203E-2043 204A-2055 205C 2061-2064 2070-2071 2075-207C 2080",
    "2085-208C 2090-209C 2100-2102 2104 2106-2108 210A-2112 2114-2115 2117-2120 2123-212A",
    "212C-2153 2156-215A 215C-215D 215F 216C-216F 217A-2188 218A-218B 219A-21D1 21D3",
    "21D5-21FF 2201 2204-2206 2209-220A 220C-220E 2210 2214 2216-2219 221B-221C 2221-2222",
    "2224 2226 222D 222F-2233 2238-223B 223E-2247 2249-224B 224D-2251 2253-225F 2262-2263",
    "2268-2269 226C-226D 2270-2281 2284-2285 2288-2294 2296-2298 229A-22A4 22A6-22BE",
    "22C0-22EE 22F0-2307 230C-2311 2313-2319 231C-2328 232B-23EF 23F4-2426 2440-244A 24FF",
    "254C-254F 2575-257F 2590-2591 2596-259F 25A2 25AA-25B1 25B4-25B5 25B8-25BB 25BE-25BF",
    "25C2-25C5 25C9-25CA 25CD 25D2-25E1 25E6-25EE 25F0-25FF 2604 2607-2608 260A-260D",
    "2610-2613 2619 2620-2638 263C-263F 2641 2643-265F 2662 2666 266B 266E 2670-267E",
    "2680-269D 26A0-26BC 26CE 26E2 26E4-26E7 2705-2707 270E-2756 2758-275A 2761 2765-2767",
    "2794-27C4 27C7-27E5 27F0-2982 2999-29D7 29DC-29FB 29FE-2B54 2B5A-2B73 2B76-2B95",
    "2B97-2CEE 2CF2-2CF3 2CFD 2D00-2D25 2D27 2D2D 2D30-2D67 2D6F 2D80-2D96 2DA0-2DA6",
    "2DA8-2DAE 2DB0-2DB6 2DB8-2DBE 2DC0-2DC6 2DC8-2DCE 2DD0-2DD6 2DD8-2DDE 2E16 2E1A-2E1B",
    "2E1E-2E1F 2E2F 2E32 2E35-2E39 2E3F 2E4B 2E4D 2E50-2E52 4DC0-4DFF A4D0-A4FD A500-A60C",
    "A610-A61F A62A-A62B A640-A66E A673 A67E-A69D A6A0-A6EF A6F2 A700-A7CA A7D0-A7D1 A7D3",
    "A7D5-A7D9 A7F2-A801 A803-A805 A807-A80A A80C-A822 A828-A82B A830-A837 A839 A840-A873",
    "A882-A8B3 A8F2-A8FB A8FD-A8FE A90A-A925 A930-A946 A95F AAE0-AAEA AAF2-AAF4 AB01-AB06",
    "AB09-AB0E AB11-AB16 AB20-AB26 AB28-AB2E AB30-AB6B AB70-ABE2 FB00-FB06 FB13-FB17 FB29",
    "FB50-FBC2 FBD3-FD3D FD40-FD8F FD92-FDC7 FDCF FDF0-FDFB FDFD-FDFF FE70-FE74 FE76-FEFC",
    "FFE8-FFEE 10000-1000B 1000D-10026 10028-1003A 1003C-1003D 1003F-1004D 10050-1005D",
    "10080-100FA 10107-10133 10137-1018E 10190-1019C 101A0 101D0-101FC 10280-1029C",
    "102A0-102D0 102E1-102FB 10300-10323 1032D-1034A 10350-10375 10380-1039D 103A0-103C3",
    "103C8-103CF 103D1-103D5 10400-1049D 104B0-104D3 104D8-104FB 10500-10527 10530-10563",
    "1056F-1057A 1057C-1058A 1058C-10592 10594-10595 10597-105A1 105A3-105B1 105B3-105B9",
    "105BB-105BC 10600-10736 10740-10755 10760-10767 10780-10785 10787-107B0 107B2-107BA",
    "10800-10805 10808 1080A-10835 10837-10838 1083C 1083F-10855 10858-1089E 108A7-108AF",
    "108E0-108F2 108F4-108F5 108FB-1091B 10920-10939 1093F 10980-109B7 109BC-109CF",
    "109D2-10A00 10A10-10A13 10A15-10A17 10A19-10A35 10A40-10A48 10A58 10A60-10A9F",
    "10AC0-10AE4 10AEB-10AEF 10B00-10B35 10B40-10B55 10B58-10B72 10B78-10B91 10B99-10B9C",
    "10BA9-10BAF 10C00-10C48 10C80-10CB2 10CC0-10CF2 10CFA-10D23 10E60-10E7E 10E80-10EA9",
    "10EB0-10EB1 10F00-10F27 10F30-10F45 10F51-10F59 10F70-10F81 10F86-10F89 10FB0-10FCB",
    "10FE0-10FF6 11083-110AF 110BB-110BC 110D0-110E8 11103-11126 11144 11147 11150-11172",
    "11174 11176 11183-111B2 111C1-111C4 111C7 111CD 111DA 111DC 111E1-111F4 11200-11211",
    "11213-1122B 1123A 1123D 1123F-11240 11280-11286 11288 1128A-1128D 1128F-1129D",
    "1129F-112A8 112B0-112DE 11400-11434 11447-1144A 1144F 1145D 1145F-11461 11480-114AF",
    "114C4-114C7 11580-115AE 115C6-115C8 115D8-115DB 11600-1162F 11643-11644 11680-116AA",
    "116B8-116B9 11800-1182B 1183B 118A0-118DF 118EA-118F2 118FF 119A0-119A7 119AA-119D0",
    "119E1 119E3 11A00 11A0B-11A32 11A3A 11A40 11A46 11A50 11A5C-11A89 11A9D 11AB0-11AF8",
    "11C00-11C08 11C0A-11C2E 11C40 11C5A-11C6C 11C72-11C8F 11D00-11D06 11D08-11D09",
    "11D0B-11D30 11D46 11D60-11D65 11D67-11D68 11D6A-11D89 11D98 11FB0 11FC0-11FDC",
    "11FE1-11FF1 12000-12399 12400-1246E 12480-12543 12F90-12FF2 13000-13257 1325E-13281",
    "13283-13285 1328A-13378 1337C-1342E 13441-13446 14400-145CD 145D0-14646 16800-16A38",
    "16A40-16A5E 16A70-16ABE 16AD0-16AED 16B00-16B2F 16B3A-16B43 16B45 16B5B-16B61",
    "16B63-16B77 16B7D-16B8F 16E40-16E96 16E99-16E9A 16F00-16F4A 16F50 16F93-16F9F",
    "18B00-18CD5 1AFF0-1AFF3 1AFF5-1AFFB 1AFFD-1AFFE 1BC00-1BC6A 1BC70-1BC7C 1BC80-1BC88",
    "1BC90-1BC99 1BC9C 1CF50-1CFC3 1D000-1D0F5 1D100-1D126 1D129-1D164 1D16A-1D16C",
    "1D183-1D184 1D18C-1D1A9 1D1AE-1D1EA 1D200-1D241 1D245 1D2C0-1D2D3 1D2E0-1D2F3",
    "1D300-1D356 1D360-1D378 1D400-1D454 1D456-1D49C 1D49E-1D49F 1D4A2 1D4A5-1D4A6",
    "1D4A9-1D4AC 1D4AE-1D4B9 1D4BB 1D4BD-1D4C3 1D4C5-1D505 1D507-1D50A 1D50D-1D514",
    "1D516-1D51C 1D51E-1D539 1D53B-1D53E 1D540-1D544 1D546 1D54A-1D550 1D552-1D6A5",
    "1D6A8-1D7CB 1D800-1D9FF 1DA37-1DA3A 1DA6D-1DA74 1DA76-1DA83 1DA85-1DA86 1DA8B",
    "1DF00-1DF1E 1DF25-1DF2A 1E030-1E06D 1E100-1E12C 1E137-1E13D 1E14E-1E14F 1E290-1E2AD",
    "1E2C0-1E2EB 1E4D0-1E4EB 1E7E0-1E7E6 1E7E8-1E7EB 1E7ED-1E7EE 1E7F0-1E7FE 1E800-1E8C4",
    "1E8C7-1E8CF 1E900-1E943 1E94B 1EC71-1ECAB 1ECAD-1ECAF 1ECB1-1ECB4 1ED01-1ED3D",
    "1EE00-1EE03 1EE05-1EE1F 1EE21-1EE22 1EE24 1EE27 1EE29-1EE32 1EE34-1EE37 1EE39 1EE3B",
    "1EE42 1EE47 1EE49 1EE4B 1EE4D-1EE4F 1EE51-1EE52 1EE54 1EE57 1EE59 1EE5B 1EE5D 1EE5F",
    "1EE61-1EE62 1EE64 1EE67-1EE6A 1EE6C-1EE72 1EE74-1EE77 1EE79-1EE7C 1EE7E 1EE80-1EE89",
    "1EE8B-1EE9B 1EEA1-1EEA3 1EEA5-1EEA9 1EEAB-1EEBB 1EEF0-1EEF1 1F12E-1F12F 1F16A-1F16C",
    "1F39C-1F39D 1F3B5-1F3B6 1F3BC 1F4A0 1F4A2 1F4A4 1F4AF 1F4B1-1F4B2 1F500-1F506",
    "1F517-1F524 1F532-1F549 1F5D4-1F5DB 1F5F4-1F5F9 1F650-1F675 1F67C-1F67F 1F700-1F773",
    "1F780-1F7D4 1F800-1F80B 1F810-1F847 1F850-1F859 1F860-1F887 1F890-1F8AD 1F900-1F90B",
    "1FA00-1FA53 1FB00-1FB92 1FB94-1FBCA"]

def dottedCircleRanges : List String :=
  ["25CC"]

def aksaraPrebaseRanges : List String :=
  ["11003-11004 1193F 11941 11F02"]

def aksaraStartRanges : List String :=
  [
    "1BC0-1BE5 AA00-AA28 11066-1106F 11350 1135E-1135F 11950-11959 11EE0-11EF1",
    "11F50-11F59"]

def breakBothRanges : List String :=
  ["2014 2E3A-2E3B"]

def breakAfterRanges : List String :=
  [
    "0009 007C 00AD 058A 05BE 0964-0965 0E5A-0E5B 0F0B 0F34 0F7F 0F85 0FBE-0FBF 0FD2",
    "104A-104B 1361 1400 1680 16EB-16ED 1735-1736 17D4-17D5 17D8 17DA 1804-1805 1B5A-1B5B",
    "1B5D-1B60 1B7D-1B7E 1C3B-1C3F 1C7E-1C7F 2000-2006 2008-200A 2010 2012-2013 2027 2056",
    "2058-205B 205D-205F 2CFA-2CFC 2CFF 2D70 2E0E-2E15 2E17 2E19 2E2A-2E2D 2E30-2E31",
    "2E33-2E34 2E3C-2E3E 2E40-2E41 2E43-2E4A 2E4C 2E4E-2E4F 2E5D 3000 A4FE-A4FF A60D A60F",
    "A6F3-A6F7 A8CE-A8CF A92E-A92F A9C7-A9C9 A9CF AA40-AA42 AA44-AA4B AA5D-AA5F AAF0-AAF1",
    "ABEB 10100-10102 1039F 103D0 10857 1091F 10A50-10A57 10AF0-10AF5 10B39-10B3F 10EAD",
    "11047-11048 110BE-110C1 11140-11143 111C5-111C6 111C8 111DD-111DF 11238-11239",
    "1123B-1123C 112A9 1133D 1135D 1144B-1144E 1145A-1145B 115C2-115C3 115C9-115D7",
    "11641-11642 1173C-1173E 11944-11946 11A41-11A44 11A9A-11A9C 11AA1-11AA2 11C41-11C45",
    "11EF2 11EF7-11EF8 11F43-11F44 11FFF 12470-12474 16A6E-16A6F 16AF5 16B37-16B39 16B44",
    "16E97-16E98 1BC9F 1DA87-1DA8A"]

def breakBeforeRanges : List String :=
  [
    "00B4 02C8 02CC 02DF 0C77 0C84 0F01-0F04 0F06-0F07 0F09-0F0A 0FD0-0FD1 0FD3 1806 1FFD",
    "A874-A875 A8FC 11175 111DB 115C1 11660-1166C 119E2 11A3F 11A45 11A9E-11AA0",
    "11B00-11B09 11C70"]

def mandatoryBreakRanges : List String :=
  ["000B-000C 2028-2029"]

def contingentBreakRanges : List String :=
  ["FFFC"]

def conditionalStarterRanges : List String :=
  [
    "3041 3043 3045 3047 3049 3063 3083 3085 3087 308E 3095-3096 30A1 30A3 30A5 30A7 30A9",
    "30C3 30E3 30E5 30E7 30EE 30F5-30F6 30FC 31F0-31FF FF67-FF70 1B132 1B150-1B152 1B155",
    "1B164-1B167"]

def closePunctuationRanges : List String :=
  [
    "007D 0F3B 0F3D 169C 2046 207E 208E 2309 230B 232A 2769 276B 276D 276F 2771 2773 2775",
    "27C6 27E7 27E9 27EB 27ED 27EF 2984 2986 2988 298A 298C 298E 2990 2992 2994 2996 2998",
    "29D9 29DB 29FD 2E23 2E25 2E27 2E29 3001-3002 3009 300B 300D 300F 3011 3015 3017 3019",
    "301B 301E-301F FD3E FE11-FE12 FE18 FE36 FE38 FE3A FE3C FE3E FE40 FE42 FE44 FE48 FE50",
    "FE52 FE5A FE5C FE5E FF09 FF0C FF0E FF3D FF5D FF60-FF61 FF63-FF64 1325B-1325D 13282",
    "13287 13289 1337A-1337B 13438 1343D 1343F 145CF"]

def combiningMarkRanges : List String :=
  [
    "0000-0008 000E-001F 007F-0084 0086-009F 0300-034E 0350-035B 0363-036F 0483-0489",
    "0591-05BD 05BF 05C1-05C2 05C4-05C5 05C7 0610-061A 061C 064B-065F 0670 06D6-06DC",
    "06DF-06E4 06E7-06E8 06EA-06ED 0711 0730-074A 07A6-07B0 07EB-07F3 07FD 0816-0819",
    "081B-0823 0825-0827 0829-082D 0859-085B 0898-089F 08CA-08E1 08E3-0903 093A-093C",
    "093E-094F 0951-0957 0962-0963 0981-0983 09BC 09BE-09C4 09C7-09C8 09CB-09CD 09D7",
    "09E2-09E3 09FE 0A01-0A03 0A3C 0A3E-0A42 0A47-0A48 0A4B-0A4D 0A51 0A70-0A71 0A75",
    "0A81-0A83 0ABC 0ABE-0AC5 0AC7-0AC9 0ACB-0ACD 0AE2-0AE3 0AFA-0AFF 0B01-0B03 0B3C",
    "0B3E-0B44 0B47-0B48 0B4B-0B4D 0B55-0B57 0B62-0B63 0B82 0BBE-0BC2 0BC6-0BC8 0BCA-0BCD",
    "0BD7 0C00-0C04 0C3C 0C3E-0C44 0C46-0C48 0C4A-0C4D 0C55-0C56 0C62-0C63 0C81-0C83 0CBC",
    "0CBE-0CC4 0CC6-0CC8 0CCA-0CCD 0CD5-0CD6 0CE2-0CE3 0CF3 0D00-0D03 0D3B-0D3C 0D3E-0D44",
    "0D46-0D48 0D4A-0D4D 0D57 0D62-0D63 0D81-0D83 0DCA 0DCF-0DD4 0DD6 0DD8-0DDF 0DF2-0DF3",
    "0F18-0F19 0F35 0F37 0F39 0F3E-0F3F 0F71-0F7E 0F80-0F84 0F86-0F87 0F8D-0F97 0F99-0FBC",
    "0FC6 135D-135F 1712-1715 1732-1734 1752-1753 1772-1773 180B-180D 180F 1885-1886 18A9",
    "1920-192B 1930-193B 1A17-1A1B 1A7F 1AB0-1ACE 1B00-1B04 1B34-1B43 1B6B-1B73 1B80-1B82",
    "1BA1-1BAD 1BE6-1BF1 1C24-1C37 1CD0-1CD2 1CD4-1CE8 1CED 1CF4 1CF7-1CF9 1DC0-1DCC",
    "1DCE-1DFB 1DFD-1DFF 200C 200E-200F 202A-202E 2066-206F 20D0-20F0 2CEF-2CF1 2D7F",
    "2DE0-2DFF 302A-302F 3035 3099-309A A66F-A672 A674-A67D A69E-A69F A6F0-A6F1 A802 A806",
    "A80B A823-A827 A82C A880-A881 A8B4-A8C5 A8E0-A8F1 A8FF A926-A92D A947-A953 A980-A983",
    "A9B3-A9BF AA29-AA36 AA43 AA4C-AA4D AAEB-AAEF AAF5-AAF6 ABE3-ABEA ABEC-ABED FB1E",
    "FE00-FE0F FE20-FE2F FFF9-FFFB 101FD 102E0 10376-1037A 10A01-10A03 10A05-10A06",
    "10A0C-10A0F 10A38-10A3A 10A3F 10AE5-10AE6 10D24-10D27 10EAB-10EAC 10EFD-10EFF",
    "10F46-10F50 10F82-10F85 11000-11002 11038-11045 11070 11073-11074 11080-11082",
    "110B0-110BA 110C2 11100-11102 11127-11134 11145-11146 11173 11180-11182 111B3-111C0",
    "111C9-111CC 111CE-111CF 1122C-11237 1123E 11241 112DF-112EA 11300-11303 1133B-1133C",
    "1133E-11344 11347-11348 1134B-1134C 11357 11362-11363 11366-1136C 11370-11374",
    "11435-11446 1145E 114B0-114C3 115AF-115B5 115B8-115C0 115DC-115DD 11630-11640",
    "116AB-116B7 1182C-1183A 11930-11935 11937-11938 1193B-1193D 11940 11942-11943",
    "119D1-119D7 119DA-119E0 119E4 11A01-11A0A 11A33-11A39 11A3B-11A3E 11A47 11A51-11A5B",
    "11A8A-11A99 11C2F-11C36 11C38-11C3F 11C92-11CA7 11CA9-11CB6 11D31-11D36 11D3A",
    "11D3C-11D3D 11D3F-11D45 11D47 11D8A-11D8E 11D90-11D91 11D93-11D97 11EF3-11EF6",
    "11F00-11F01 11F03 11F34-11F3A 11F3E-11F41 13440 13447-13455 16AF0-16AF4 16B30-16B36",
    "16F4F 16F51-16F87 16F8F-16F92 16FF0-16FF1 1BC9D-1BC9E 1BCA0-1BCA3 1CF00-1CF2D",
    "1CF30-1CF46 1D165-1D169 1D16D-1D182 1D185-1D18B 1D1AA-1D1AD 1D242-1D244 1DA00-1DA36",
    "1DA3B-1DA6C 1DA75 1DA84 1DA9B-1DA9F 1DAA1-1DAAF 1E000-1E006 1E008-1E018 1E01B-1E021",
    "1E023-1E024 1E026-1E02A 1E08F 1E130-1E136 1E2AE 1E2EC-1E2EF 1E4EC-1E4EF 1E8D0-1E8D6",
    "1E944-1E94A E0001 E0020-E007F E0100-E01EF"]

def closeParenthesisRanges : List String :=
  ["0029 005D 2E56 2E58 2E5A 2E5C"]

def carriageReturnRanges : List String :=
  ["000D"]

def emojiBaseRanges : List String :=
  [
    "261D 26F9 270A-270D 1F385 1F3C2-1F3C4 1F3C7 1F3CA-1F3CC 1F442-1F443 1F446-1F450",
    "1F466-1F478 1F47C 1F481-1F483 1F485-1F487 1F48F 1F491 1F4AA 1F574-1F575 1F57A 1F590",
    "1F595-1F596 1F645-1F647 1F64B-1F64F 1F6A3 1F6B4-1F6B6 1F6C0 1F6CC 1F90C 1F90F",
    "1F918-1F91F 1F926 1F930-1F939 1F93C-1F93E 1F977 1F9B5-1F9B6 1F9B8-1F9B9 1F9BB",
    "1F9CD-1F9CF 1F9D1-1F9DD 1FAC3-1FAC5 1FAF0-1FAF8"]

def emojiModifierRanges : List String :=
  ["1F3FB-1F3FF"]

def exclamationRanges : List String :=
  [
    "0021 003F 05C6 061B 061D-061F 06D4 07F9 0F0D-0F11 0F14 1802-1803 1808-1809 1944-1945",
    "2762-2763 2CF9 2CFE 2E2E 2E53-2E54 A60E A876-A877 FE15-FE16 FE56-FE57 FF01 FF1F",
    "115C4-115C5 11C71"]

def glueRanges : List String :=
  [
    "00A0 034F 035C-0362 0F08 0F0C 0F12 0FD9-0FDA 180E 1DCD 1DFC 2007 2011 202F 1107F",
    "13430-13436 13439-1343B 16FE4"]

def hebrewLetterRanges : List String :=
  [
    "05D0-05EA 05EF-05F2 FB1D FB1F-FB28 FB2A-FB36 FB38-FB3C FB3E FB40-FB41 FB43-FB44",
    "FB46-FB4F"]

def hyphenRanges : List String :=
  ["002D"]

def ideographRanges : List String :=
  [
    "1B50-1B59 1B5C 1B61-1B6A 1B74-1B7C 231A-231B 23F0-23F3 2600-2603 2614-2615 2618",
    "261A-261C 261E-261F 2639-263B 2668 267F 26BD-26C8 26CD 26CF-26D1 26D3-26D4 26D8-26D9",
    "26DC 26DF-26E1 26EA 26F1-26F5 26F7-26F8 26FA 26FD-2704 2708-2709 2764 2E80-2E99",
    "2E9B-2EF3 2F00-2FD5 2FF0-2FFF 3003-3004 3006-3007 3012-3013 3020-3029 3030-3034",
    "3036-303A 303D-303F 3042 3044 3046 3048 304A-3062 3064-3082 3084 3086 3088-308D",
    "308F-3094 309F 30A2 30A4 30A6 30A8 30AA-30C2 30C4-30E2 30E4 30E6 30E8-30ED 30EF-30F4",
    "30F7-30FA 30FF 3105-312F 3131-318E 3190-31E3 31EF 3200-321E 3220-3247 3250-4DBF",
    "4E00-A014 A016-A48C A490-A4C6 A9C1-A9C6 A9CA-A9CD A9D0-A9D9 A9DE-A9DF AA50-AA59 AA5C",
    "F900-FAFF FE30-FE34 FE45-FE46 FE49-FE4F FE51 FE58 FE5F-FE66 FE68 FE6B FF02-FF03",
    "FF06-FF07 FF0A-FF0B FF0D FF0F-FF19 FF1C-FF1E FF20-FF3A FF3C FF3E-FF5A FF5C FF5E FF66",
    "FF71-FF9D FFA0-FFBE FFC2-FFC7 FFCA-FFCF FFD2-FFD7 FFDA-FFDC FFE2-FFE4 11049-1104D",
    "11052-11065 11F45-11F4F 17000-187F7 18800-18AFF 18D00-18D08 1B000-1B122 1B170-1B2FB",
    "1F000-1F02B 1F030-1F093 1F0A0-1F0AE 1F0B1-1F0BF 1F0C1-1F0CF 1F0D1-1F0F5 1F10D-1F10F",
    "1F16D-1F16F 1F1AD 1F200-1F202 1F210-1F23B 1F240-1F248 1F250-1F251 1F260-1F265",
    "1F300-1F384 1F386-1F39B 1F39E-1F3B4 1F3B7-1F3BB 1F3BD-1F3C1 1F3C5-1F3C6 1F3C8-1F3C9",
    "1F3CD-1F3FA 1F400-1F441 1F444-1F445 1F451-1F465 1F479-1F47B 1F47D-1F480 1F484",
    "1F488-1F48E 1F490 1F492-1F49F 1F4A1 1F4A3 1F4A5-1F4A9 1F4AB-1F4AE 1F4B0 1F4B3-1F4FF",
    "1F507-1F516 1F525-1F531 1F54A-1F573 1F576-1F579 1F57B-1F58F 1F591-1F594 1F597-1F5D3",
    "1F5DC-1F5F3 1F5FA-1F644 1F648-1F64A 1F680-1F6A2 1F6A4-1F6B3 1F6B7-1F6BF 1F6C1-1F6CB",
    "1F6CD-1F6D7 1F6DC-1F6EC 1F6F0-1F6FC 1F774-1F776 1F77B-1F77F 1F7D5-1F7D9 1F7E0-1F7EB",
    "1F7F0 1F8B0-1F8B1 1F90D-1F90E 1F910-1F917 1F920-1F925 1F927-1F92F 1F93A-1F93B",
    "1F93F-1F976 1F978-1F9B4 1F9B7 1F9BA 1F9BC-1F9CC 1F9D0 1F9DE-1F9FF 1FA60-1FA6D",
    "1FA70-1FA7C 1FA80-1FA88 1FA90-1FABD 1FABF-1FAC2 1FACE-1FADB 1FAE0-1FAE8 20000-2FFFD",
    "30000-3FFFD"]

def unassignedPictographRanges : List String :=
  [
    "1F02C-1F02F 1F094-1F09F 1F0AF-1F0B0 1F0C0 1F0D0 1F0F6-1F0FF 1F1AE-1F1E5 1F203-1F20F",
    "1F23C-1F23F 1F249-1F24F 1F252-1F25F 1F266-1F2FF 1F6D8-1F6DB 1F6ED-1F6EF 1F6FD-1F6FF",
    "1F777-1F77A 1F7DA-1F7DF 1F7EC-1F7EF 1F7F1-1F7FF 1F80C-1F80F 1F848-1F84F 1F85A-1F85F",
    "1F888-1F88F 1F8AE-1F8AF 1F8B2-1F8FF 1FA54-1FA5F 1FA6E-1FA6F 1FA7D-1FA7F 1FA89-1FA8F",
    "1FABE 1FAC6-1FACD 1FADC-1FADF 1FAE9-1FAEF 1FAF9-1FAFF 1FC00-1FFFD"]

def inseparableRanges : List String :=
  ["2024-2026 22EF FE19 10AF6"]

def numericSeparatorRanges : List String :=
  ["002C 002E 003A-003B 037E 0589 060C-060D 07F8 2044 FE10 FE13-FE14"]

def leadingJamoRanges : List String :=
  ["1100-115F A960-A97C"]

def trailingJamoRanges : List String :=
  ["11A8-11FF D7CB-D7FB"]

def vowelJamoRanges : List String :=
  ["1160-11A7 D7B0-D7C6"]

def lineFeedRanges : List String :=
  ["000A"]

def nextLineRanges : List String :=
  ["0085"]

def nonstarterRanges : List String :=
  [
    "17D6 203C-203D 2047-2049 3005 301C 303B-303C 309B-309E 30A0 30FB 30FD-30FE A015",
    "FE54-FE55 FF1A-FF1B FF65 FF9E-FF9F 16FE0-16FE3 1F679-1F67B"]

def numericRanges : List String :=
  [
    "0030-0039 0600-0605 0660-0669 066B-066C 06DD 06F0-06F9 07C0-07C9 0890-0891 08E2",
    "0966-096F 09E6-09EF 0A66-0A6F 0AE6-0AEF 0B66-0B6F 0BE6-0BEF 0C66-0C6F 0CE6-0CEF",
    "0D66-0D6F 0DE6-0DEF 0E50-0E59 0ED0-0ED9 0F20-0F29 1040-1049 1090-1099 17E0-17E9",
    "1810-1819 1946-194F 19D0-19D9 1A80-1A89 1A90-1A99 1BB0-1BB9 1C40-1C49 1C50-1C59",
    "A620-A629 A8D0-A8D9 A900-A909 A9F0-A9F9 ABF0-ABF9 104A0-104A9 10D30-10D39 110BD",
    "110CD 110F0-110F9 11136-1113F 111D0-111D9 112F0-112F9 11450-11459 114D0-114D9",
    "11650-11659 116C0-116C9 11730-11739 118E0-118E9 11C50-11C59 11D50-11D59 11DA0-11DA9",
    "16A60-16A69 16AC0-16AC9 16B50-16B59 1D7CE-1D7FF 1E140-1E149 1E2F0-1E2F9 1E4F0-1E4F9",
    "1E950-1E959 1FBF0-1FBF9"]

def wideOpenPunctuationRanges : List String :=
  [
    "2329 3008 300A 300C 300E 3010 3014 3016 3018 301A 301D FE17 FE35 FE37 FE39 FE3B FE3D",
    "FE3F FE41 FE43 FE47 FE59 FE5B FE5D FF08 FF3B FF5B FF5F FF62"]

def openPunctuationRanges : List String :=
  [
    "0028 005B 007B 00A1 00BF 0F3A 0F3C 169B 201A 201E 2045 207D 208D 2308 230A 2768 276A",
    "276C 276E 2770 2772 2774 27C5 27E6 27E8 27EA 27EC 27EE 2983 2985 2987 2989 298B 298D",
    "298F 2991 2993 2995 2997 29D8 29DA 29FC 2E18 2E22 2E24 2E26 2E28 2E42 2E55 2E57 2E59",
    "2E5B FD3F 13258-1325A 13286 13288 13379 1342F 13437 1343C 1343E 145CE 1E95E-1E95F"]

def afterNumericRanges : List String :=
  [
    "0025 00A2 0609-060B 066A 09F2-09F3 09F9 0D79 2031 2034 2036-2037 2057 20A7 20B6 20BB",
    "20BE 20C0 A838 FDFC 11FDD-11FE0 1ECAC 1ECB0"]

def wideAfterNumericRanges : List String :=
  ["00B0 2030 2032-2033 2035 2103 2109 FE6A FF05 FFE0"]

def beforeNumericRanges : List String :=
  [
    "0024 002B 005C 00A3 00A5 058F 07FE-07FF 09FB 0AF1 0BF9 0E3F 17DB 20A0-20A6 20A8-20AB",
    "20AD-20B5 20B7-20BA 20BC-20BD 20BF 20C1-20CF 2212-2213 1E2FF"]

def wideBeforeNumericRanges : List String :=
  ["00A4 00B1 20AC 2116 FE69 FF04 FFE1 FFE5-FFE6"]

def quotationRanges : List String :=
  ["0022 0027 275B-2760 2E00-2E01 2E06-2E08 2E0B 1F676-1F678"]

def finalQuotationRanges : List String :=
  ["00BB 2019 201D 203A 2E03 2E05 2E0A 2E0D 2E1D 2E21"]

def initialQuotationRanges : List String :=
  ["00AB 2018 201B-201C 201F 2039 2E02 2E04 2E09 2E0C 2E1C 2E20"]

def regionalIndicatorRanges : List String :=
  ["1F1E6-1F1FF"]

def complexContextRanges : List String :=
  [
    "0E01-0E3A 0E40-0E4E 0E81-0E82 0E84 0E86-0E8A 0E8C-0EA3 0EA5 0EA7-0EBD 0EC0-0EC4 0EC6",
    "0EC8-0ECE 0EDC-0EDF 1000-103F 1050-108F 109A-109F 1780-17D3 17D7 17DC-17DD 1950-196D",
    "1970-1974 1980-19AB 19B0-19C9 19DA 19DE-19DF 1A20-1A5E 1A60-1A7C 1AA0-1AAD A9E0-A9EF",
    "A9FA-A9FE AA60-AAC2 AADB-AADF 11700-1171A 1171D-1172B 1173A-1173B 1173F-11746"]

def spaceRanges : List String :=
  ["0020"]

def solidusRanges : List String :=
  ["002F"]

def viramaFinalRanges : List String :=
  ["1BF2-1BF3"]

def viramaRanges : List String :=
  ["1B44 A9C0 11046 1134D 1193E 11F42"]

def wordJoinerRanges : List String :=
  ["2060 FEFF"]

def zeroWidthSpaceRanges : List String :=
  ["200B"]

def zeroWidthJoinerRanges : List String :=
  ["200D"]

/-- The assigned characters outside the Hangul syllables. -/
def table : RangeTable LineClass :=
  RangeTable.ofRanges [
    (.ambiguous, ambiguousRanges),
    (.aksara, aksaraRanges),
    (.alphabetic, alphabeticRanges),
    (.dottedCircle, dottedCircleRanges),
    (.aksaraPrebase, aksaraPrebaseRanges),
    (.aksaraStart, aksaraStartRanges),
    (.breakBoth, breakBothRanges),
    (.breakAfter, breakAfterRanges),
    (.breakBefore, breakBeforeRanges),
    (.mandatoryBreak, mandatoryBreakRanges),
    (.contingentBreak, contingentBreakRanges),
    (.conditionalStarter, conditionalStarterRanges),
    (.closePunctuation, closePunctuationRanges),
    (.combiningMark, combiningMarkRanges),
    (.closeParenthesis, closeParenthesisRanges),
    (.carriageReturn, carriageReturnRanges),
    (.emojiBase, emojiBaseRanges),
    (.emojiModifier, emojiModifierRanges),
    (.exclamation, exclamationRanges),
    (.glue, glueRanges),
    (.hebrewLetter, hebrewLetterRanges),
    (.hyphen, hyphenRanges),
    (.ideograph, ideographRanges),
    (.unassignedPictograph, unassignedPictographRanges),
    (.inseparable, inseparableRanges),
    (.numericSeparator, numericSeparatorRanges),
    (.leadingJamo, leadingJamoRanges),
    (.trailingJamo, trailingJamoRanges),
    (.vowelJamo, vowelJamoRanges),
    (.lineFeed, lineFeedRanges),
    (.nextLine, nextLineRanges),
    (.nonstarter, nonstarterRanges),
    (.numeric, numericRanges),
    (.wideOpenPunctuation, wideOpenPunctuationRanges),
    (.openPunctuation, openPunctuationRanges),
    (.afterNumeric, afterNumericRanges),
    (.wideAfterNumeric, wideAfterNumericRanges),
    (.beforeNumeric, beforeNumericRanges),
    (.wideBeforeNumeric, wideBeforeNumericRanges),
    (.quotation, quotationRanges),
    (.finalQuotation, finalQuotationRanges),
    (.initialQuotation, initialQuotationRanges),
    (.regionalIndicator, regionalIndicatorRanges),
    (.complexContext, complexContextRanges),
    (.space, spaceRanges),
    (.solidus, solidusRanges),
    (.viramaFinal, viramaFinalRanges),
    (.virama, viramaRanges),
    (.wordJoiner, wordJoinerRanges),
    (.zeroWidthSpace, zeroWidthSpaceRanges),
    (.zeroWidthJoiner, zeroWidthJoinerRanges)]

/-- The code points of the precomposed Hangul syllables. -/
def isHangulSyllable (code : Nat) : Bool :=
  0xAC00 ≤ code && code ≤ 0xD7A3

/--
The class of a character.  Each Hangul vowel has twenty-eight syllables in a row, of which
only the first lacks a final consonant.
-/
def ofChar (c : Char) : LineClass :=
  if isHangulSyllable c.toNat then
    if (c.toNat - 0xAC00) % 28 == 0 then
      .hangulOpenSyllable
    else
      .hangulClosedSyllable
  else
    (table.find? c.toNat).getD .unassigned

end Folio.LineClass
