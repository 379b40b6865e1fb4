import Folio.Unicode.BidiClass
import Folio.Unicode.RangeTable

/-!
# The bidirectional class of each character

The classes are listed one by one; characters in no list are written from left to right.
-/

namespace Folio.BidiClass

def rightToLeftRanges : List String :=
  [
    "0590 05BE 05C0 05C3 05C6 05C8-05FF 07C0-07EA 07F4-07F5 07FA-07FC 07FE-0815 081A 0824",
    "0828 082E-0858 085C-085F 200F FB1D FB1F-FB28 FB2A-FB4F 10800-1091E 10920-10A00 10A04",
    "10A07-10A0B 10A10-10A37 10A3B-10A3E 10A40-10AE4 10AE7-10B38 10B40-10CFF 10D4A-10D68",
    "10D6F-10E5F 10E7F-10EAA 10EAD-10EBF 10F00-10F2F 10F70-10F81 10F86-10FFF 1E800-1E8CF",
    "1E8D7-1E943 1E94B-1EC6F 1ECC0-1ECFF 1ED50-1EDFF 1EF00-1EFFF"]

def arabicLetterRanges : List String :=
  [
    "0608 060B 060D 061B-064A 066D-066F 0671-06D5 06E5-06E6 06EE-06EF 06FA-0710 0712-072F",
    "074B-07A5 07B1-07BF 0860-088F 0892-0896 08A0-08C9 FB50-FD3D FD50-FDCE FDF0-FDFC",
    "FE70-FEFE 10D00-10D23 10D28-10D2F 10D3A-10D3F 10EC0-10EFB 10F30-10F45 10F51-10F6F",
    "1EC70-1ECBF 1ED00-1ED4F 1EE00-1EEEF 1EEF2-1EEFF"]

def europeanNumberRanges : List String :=
  [
    "0030-0039 00B2-00B3 00B9 06F0-06F9 2070 2074-2079 2080-2089 2488-249B FF10-FF19",
    "102E1-102FB 1CCF0-1CCF9 1D7CE-1D7FF 1F100-1F10A 1FBF0-1FBF9"]

def europeanSeparatorRanges : List String :=
  ["002B 002D 207A-207B 208A-208B 2212 FB29 FE62-FE63 FF0B FF0D"]

def europeanTerminatorRanges : List String :=
  [
    "0023-0025 00A2-00A5 00B0-00B1 058F 0609-060A 066A 09F2-09F3 09FB 0AF1 0BF9 0E3F 17DB",
    "2030-2034 20A0-20CF 212E 2213 A838-A839 FE5F FE69-FE6A FF03-FF05 FFE0-FFE1 FFE5-FFE6",
    "11FDD-11FE0 1E2FF"]

def arabicNumberRanges : List String :=
  [
    "0600-0605 0660-0669 066B-066C 06DD 0890-0891 08E2 10D30-10D39 10D40-10D49",
    "10E60-10E7E"]

def commonSeparatorRanges : List String :=
  ["002C 002E-002F 003A 00A0 060C 202F 2044 FE50 FE52 FE55 FF0C FF0E-FF0F FF1A"]

def nonspacingMarkRanges : List String :=
  [
    "0300-036F 0483-0489 0591-05BD 05BF 05C1-05C2 05C4-05C5 05C7 0610-061A 064B-065F 0670",
    "06D6-06DC 06DF-06E4 06E7-06E8 06EA-06ED 0711 0730-074A 07A6-07B0 07EB-07F3 07FD",
    "0816-0819 081B-0823 0825-0827 0829-082D 0859-085B 0897-089F 08CA-08E1 08E3-0902 093A",
    "093C 0941-0948 094D 0951-0957 0962-0963 0981 09BC 09C1-09C4 09CD 09E2-09E3 09FE",
    "0A01-0A02 0A3C 0A41-0A42 0A47-0A48 0A4B-0A4D 0A51 0A70-0A71 0A75 0A81-0A82 0ABC",
    "0AC1-0AC5 0AC7-0AC8 0ACD 0AE2-0AE3 0AFA-0AFF 0B01 0B3C 0B3F 0B41-0B44 0B4D 0B55-0B56",
    "0B62-0B63 0B82 0BC0 0BCD 0C00 0C04 0C3C 0C3E-0C40 0C46-0C48 0C4A-0C4D 0C55-0C56",
    "0C62-0C63 0C81 0CBC 0CCC-0CCD 0CE2-0CE3 0D00-0D01 0D3B-0D3C 0D41-0D44 0D4D 0D62-0D63",
    "0D81 0DCA 0DD2-0DD4 0DD6 0E31 0E34-0E3A 0E47-0E4E 0EB1 0EB4-0EBC 0EC8-0ECE 0F18-0F19",
    "0F35 0F37 0F39 0F71-0F7E 0F80-0F84 0F86-0F87 0F8D-0F97 0F99-0FBC 0FC6 102D-1030",
    "1032-1037 1039-103A 103D-103E 1058-1059 105E-1060 1071-1074 1082 1085-1086 108D 109D",
    "135D-135F 1712-1714 1732-1733 1752-1753 1772-1773 17B4-17B5 17B7-17BD 17C6 17C9-17D3",
    "17DD 180B-180D 180F 1885-1886 18A9 1920-1922 1927-1928 1932 1939-193B 1A17-1A18 1A1B",
    "1A56 1A58-1A5E 1A60 1A62 1A65-1A6C 1A73-1A7C 1A7F 1AB0-1ACE 1B00-1B03 1B34 1B36-1B3A",
    "1B3C 1B42 1B6B-1B73 1B80-1B81 1BA2-1BA5 1BA8-1BA9 1BAB-1BAD 1BE6 1BE8-1BE9 1BED",
    "1BEF-1BF1 1C2C-1C33 1C36-1C37 1CD0-1CD2 1CD4-1CE0 1CE2-1CE8 1CED 1CF4 1CF8-1CF9",
    "1DC0-1DFF 20D0-20F0 2CEF-2CF1 2D7F 2DE0-2DFF 302A-302D 3099-309A A66F-A672 A674-A67D",
    "A69E-A69F A6F0-A6F1 A802 A806 A80B A825-A826 A82C A8C4-A8C5 A8E0-A8F1 A8FF A926-A92D",
    "A947-A951 A980-A982 A9B3 A9B6-A9B9 A9BC-A9BD A9E5 AA29-AA2E AA31-AA32 AA35-AA36 AA43",
    "AA4C AA7C AAB0 AAB2-AAB4 AAB7-AAB8 AABE-AABF AAC1 AAEC-AAED AAF6 ABE5 ABE8 ABED FB1E",
    "FE00-FE0F FE20-FE2F 101FD 102E0 10376-1037A 10A01-10A03 10A05-10A06 10A0C-10A0F",
    "10A38-10A3A 10A3F 10AE5-10AE6 10D24-10D27 10D69-10D6D 10EAB-10EAC 10EFC-10EFF",
    "10F46-10F50 10F82-10F85 11001 11038-11046 11070 11073-11074 1107F-11081 110B3-110B6",
    "110B9-110BA 110C2 11100-11102 11127-1112B 1112D-11134 11173 11180-11181 111B6-111BE",
    "111C9-111CC 111CF 1122F-11231 11234 11236-11237 1123E 11241 112DF 112E3-112EA",
    "11300-11301 1133B-1133C 11340 11366-1136C 11370-11374 113BB-113C0 113CE 113D0 113D2",
    "113E1-113E2 11438-1143F 11442-11444 11446 1145E 114B3-114B8 114BA 114BF-114C0",
    "114C2-114C3 115B2-115B5 115BC-115BD 115BF-115C0 115DC-115DD 11633-1163A 1163D",
    "1163F-11640 116AB 116AD 116B0-116B5 116B7 1171D 1171F 11722-11725 11727-1172B",
    "1182F-11837 11839-1183A 1193B-1193C 1193E 11943 119D4-119D7 119DA-119DB 119E0",
    "11A01-11A06 11A09-11A0A 11A33-11A38 11A3B-11A3E 11A47 11A51-11A56 11A59-11A5B",
    "11A8A-11A96 11A98-11A99 11C30-11C36 11C38-11C3D 11C92-11CA7 11CAA-11CB0 11CB2-11CB3",
    "11CB5-11CB6 11D31-11D36 11D3A 11D3C-11D3D 11D3F-11D45 11D47 11D90-11D91 11D95 11D97",
    "11EF3-11EF4 11F00-11F01 11F36-11F3A 11F40 11F42 11F5A 13440 13447-13455 1611E-16129",
    "1612D-1612F 16AF0-16AF4 16B30-16B36 16F4F 16F8F-16F92 16FE4 1BC9D-1BC9E 1CF00-1CF2D",
    "1CF30-1CF46 1D167-1D169 1D17B-1D182 1D185-1D18B 1D1AA-1D1AD 1D242-1D244 1DA00-1DA36",
    "1DA3B-1DA6C 1DA75 1DA84 1DA9B-1DA9F 1DAA1-1DAAF 1E000-1E006 1E008-1E018 1E01B-1E021",
    "1E023-1E024 1E026-1E02A 1E08F 1E130-1E136 1E2AE 1E2EC-1E2EF 1E4EC-1E4EF 1E5EE-1E5EF",
    "1E8D0-1E8D6 1E944-1E94A E0100-E01EF"]

def boundaryNeutralRanges : List String :=
  [
    "0000-0008 000E-001B 007F-0084 0086-009F 00AD 180E 200B-200D 2060-2064 206A-206F FEFF",
    "1BCA0-1BCA3 1D173-1D17A E0001 E0020-E007F"]

def paragraphSeparatorRanges : List String :=
  ["000A 000D 001C-001E 0085 2029"]

def segmentSeparatorRanges : List String :=
  ["0009 000B 001F"]

def whiteSpaceRanges : List String :=
  ["000C 0020 1680 2000-200A 2028 205F 3000"]

def otherNeutralRanges : List String :=
  [
    "0021-0022 0026-002A 003B-0040 005B-0060 007B-007E 00A1 00A6-00A9 00AB-00AC 00AE-00AF",
    "00B4 00B6-00B8 00BB-00BF 00D7 00F7 02B9-02BA 02C2-02CF 02D2-02DF 02E5-02ED 02EF-02FF",
    "0374-0375 037E 0384-0385 0387 03F6 058A 058D-058E 0606-0607 060E-060F 06DE 06E9",
    "07F6-07F9 0BF3-0BF8 0BFA 0C78-0C7E 0F3A-0F3D 1390-1399 1400 169B-169C 17F0-17F9",
    "1800-180A 1940 1944-1945 19DE-19FF 1FBD 1FBF-1FC1 1FCD-1FCF 1FDD-1FDF 1FED-1FEF",
    "1FFD-1FFE 2010-2027 2035-2043 2045-205E 207C-207E 208C-208E 2100-2101 2103-2106",
    "2108-2109 2114 2116-2118 211E-2123 2125 2127 2129 213A-213B 2140-2144 214A-214D",
    "2150-215F 2189-218B 2190-2211 2214-2335 237B-2394 2396-2429 2440-244A 2460-2487",
    "24EA-26AB 26AD-27FF 2900-2B73 2B76-2B95 2B97-2BFF 2CE5-2CEA 2CF9-2CFF 2E00-2E5D",
    "2E80-2E99 2E9B-2EF3 2F00-2FD5 2FF0-2FFF 3001-3004 3008-3020 3030 3036-3037 303D-303F",
    "309B-309C 30A0 30FB 31C0-31E5 31EF 321D-321E 3250-325F 327C-327E 32B1-32BF 32CC-32CF",
    "3377-337A 33DE-33DF 33FF 4DC0-4DFF A490-A4C6 A60D-A60F A673 A67E-A67F A700-A721 A788",
    "A828-A82B A874-A877 AB6A-AB6B FD3E-FD4F FDCF FDFD-FDFF FE10-FE19 FE30-FE4F FE51 FE54",
    "FE56-FE5E FE60-FE61 FE64-FE66 FE68 FE6B FF01-FF02 FF06-FF0A FF1B-FF20 FF3B-FF40",
    "FF5B-FF65 FFE2-FFE4 FFE8-FFEE FFF9-FFFD 10101 10140-1018C 10190-1019C 101A0 1091F",
    "10B39-10B3F 10D6E 11052-11065 11660-1166C 11FD5-11FDC 11FE1-11FF1 16FE2 1CC00-1CCD5",
    "1CD00-1CEB3 1D1E9-1D1EA 1D200-1D241 1D245 1D300-1D356 1D6C1 1D6DB 1D6FB 1D715 1D735",
    "1D74F 1D76F 1D789 1D7A9 1D7C3 1EEF0-1EEF1 1F000-1F02B 1F030-1F093 1F0A0-1F0AE",
    "1F0B1-1F0BF 1F0C1-1F0CF 1F0D1-1F0F5 1F10B-1F10F 1F12F 1F16A-1F16F 1F1AD 1F260-1F265",
    "1F300-1F6D7 1F6DC-1F6EC 1F6F0-1F6FC 1F700-1F776 1F77B-1F7D9 1F7E0-1F7EB 1F7F0",
    "1F800-1F80B 1F810-1F847 1F850-1F859 1F860-1F887 1F890-1F8AD 1F8B0-1F8BB 1F8C0-1F8C1",
    "1F900-1FA53 1FA60-1FA6D 1FA70-1FA7C 1FA80-1FA89 1FA8F-1FAC6 1FACE-1FADC 1FADF-1FAE9",
    "1FAF0-1FAF8 1FB00-1FB92 1FB94-1FBEF"]

def leftToRightEmbeddingRanges : List String :=
  ["202A"]

def leftToRightOverrideRanges : List String :=
  ["202D"]

def rightToLeftEmbeddingRanges : List String :=
  ["202B"]

def rightToLeftOverrideRanges : List String :=
  ["202E"]

def popDirectionalFormatRanges : List String :=
  ["202C"]

def leftToRightIsolateRanges : List String :=
  ["2066"]

def rightToLeftIsolateRanges : List String :=
  ["2067"]

def firstStrongIsolateRanges : List String :=
  ["2068"]

def popDirectionalIsolateRanges : List String :=
  ["2069"]

/-- The characters of all classes but `leftToRight`. -/
def table : RangeTable BidiClass :=
  RangeTable.ofRanges [
    (.rightToLeft, rightToLeftRanges),
    (.arabicLetter, arabicLetterRanges),
    (.europeanNumber, europeanNumberRanges),
    (.europeanSeparator, europeanSeparatorRanges),
    (.europeanTerminator, europeanTerminatorRanges),
    (.arabicNumber, arabicNumberRanges),
    (.commonSeparator, commonSeparatorRanges),
    (.nonspacingMark, nonspacingMarkRanges),
    (.boundaryNeutral, boundaryNeutralRanges),
    (.paragraphSeparator, paragraphSeparatorRanges),
    (.segmentSeparator, segmentSeparatorRanges),
    (.whiteSpace, whiteSpaceRanges),
    (.otherNeutral, otherNeutralRanges),
    (.leftToRightEmbedding, leftToRightEmbeddingRanges),
    (.leftToRightOverride, leftToRightOverrideRanges),
    (.rightToLeftEmbedding, rightToLeftEmbeddingRanges),
    (.rightToLeftOverride, rightToLeftOverrideRanges),
    (.popDirectionalFormat, popDirectionalFormatRanges),
    (.leftToRightIsolate, leftToRightIsolateRanges),
    (.rightToLeftIsolate, rightToLeftIsolateRanges),
    (.firstStrongIsolate, firstStrongIsolateRanges),
    (.popDirectionalIsolate, popDirectionalIsolateRanges)]

/-- The class of a character. -/
def ofChar (c : Char) : BidiClass :=
  if c.isAlpha then
    .leftToRight
  else if c.isDigit then
    .europeanNumber
  else
    (table.find? c.toNat).getD .leftToRight

end Folio.BidiClass
