import ScopeLexer.Unicode.RangeTable

/-!
# Scripts

The characters of each script, under the script's name.
-/

namespace ScopeLexer.Unicode

def scripts : List (String × RangeTable) := [
  ("Adlam", .ofRows ["125184 76 4 10 4 2"]),
  ("Ahom", .ofRows ["71424 27 2 15 4 23"]),
  ("Anatolian_Hieroglyphs", .ofRows ["82944 583"]),
  ("Arabic", .ofRows [
    "1536 5 1 6 1 14 1 3 1 32 1 10 11 26 1 108 1 34 80 48 240 31 1 2 6 74 1 29 62032 115 16 363",
    "2 80 2 54 7 1 32 16 112 5 1 135 3939 31 126 3 57088 4 1 27 1 2 1 1 2 1 1 10 1 4 1 1 1 1 6",
    "1 4 1 1 1 1 1 1 3 1 2 1 1 2 1 1 1 1 1 1 1 1 1 1 2 1 1 2 4 1 7 1 4 1 4 1 1 1 10 1 17 5 3 1",
    "5 1 17 52 2"]),
  ("Armenian", .ofRows ["1329 38 2 50 2 3 62851 5"]),
  ("Avestan", .ofRows ["68352 54 3 7"]),
  ("Balinese", .ofRows ["6912 77 3 47"]),
  ("Bamum", .ofRows ["42656 88 49416 569"]),
  ("Bassa_Vah", .ofRows ["92880 30 2 6"]),
  ("Batak", .ofRows ["7104 52 8 4"]),
  ("Bengali", .ofRows ["2432 4 1 8 2 2 2 22 1 7 1 1 3 4 2 9 2 2 2 4 8 1 4 2 1 5 2 25"]),
  ("Bhaiksuki", .ofRows ["72704 9 1 45 1 14 10 29"]),
  ("Bopomofo", .ofRows ["746 2 11801 43 112 32"]),
  ("Brahmi", .ofRows ["69632 78 4 36 9 1"]),
  ("Braille", .ofRows ["10240 256"]),
  ("Buginese", .ofRows ["6656 28 2 2"]),
  ("Buhid", .ofRows ["5952 20"]),
  ("Canadian_Aboriginal", .ofRows ["5120 640 560 70 65978 16"]),
  ("Carian", .ofRows ["66208 49"]),
  ("Caucasian_Albanian", .ofRows ["66864 52 11 1"]),
  ("Chakma", .ofRows ["69888 53 1 18"]),
  ("Cham", .ofRows ["43520 55 9 14 2 10 2 4"]),
  ("Cherokee", .ofRows ["5024 86 2 6 38770 80"]),
  ("Chorasmian", .ofRows ["69552 28"]),
  ("Common", .ofRows [
    "0 65 26 6 26 47 1 15 1 5 23 1 31 1 449 39 5 5 2 20 116 1 9 1 6 1 1 1 637 1 6 1 14 1 3 1 32",
    "1 156 1 516 1 129 2 1241 1 405 4 290 1 1519 3 71 2 203 2 1 1 1229 1 13 1 7 4 1 6 1 3 2 1",
    "773 12 2 87 1 11 3 11 1 15 17 33 63 38 1 3 2 6 1 27 1 17 41 3 4 663 25 11 21 928 256 628 2",
    "32 1 105 512 94 402 12 4 5 1 1 1 25 15 8 4 4 91 2 3 1 90 2 147 16 32 36 60 64 31 81 47 1",
    "88 168 6592 64 22784 34 102 3 165 10 244 1 160 1 395 1 14 2 20946 2 208 10 22 35 1 19 1 4",
    "147 1 1 32 26 6 26 11 10 1 45 2 64 7 1 7 10 5 258 3 4 45 3 9 80 13 51 45 228 27 47524 4",
    "4780 116 60 246 10 39 2 62 3 17 8 2 7 30 4 61 213 20 12 20 12 87 9 25 135 85 1 71 1 2 2 1",
    "2 2 2 4 1 12 1 1 1 7 1 65 1 4 2 8 1 7 1 28 1 4 1 5 1 1 3 7 1 340 2 292 2 50 5233 68 76 61",
    "706 44 4 100 12 15 2 15 1 15 1 37 10 174 56 26 1 2 13 44 4 9 7 2 14 6 154 984 4 17 3 13 3",
    "119 4 95 6 12 4 1 15 12 4 56 8 10 6 40 8 30 2 2 78 340 12 14 2 13 3 9 7 46 1 7 8 14 4 9 7",
    "9 7 147 1 55 37 10 787463 1 30 96"]),
  ("Coptic", .ofRows ["994 14 10384 116 5 7"]),
  ("Cuneiform", .ofRows ["73728 922 102 111 1 5 11 196"]),
  ("Cypriot", .ofRows ["67584 6 2 1 1 44 1 2 3 1 2 1"]),
  ("Cypro_Minoan", .ofRows ["77712 99"]),
  ("Cyrillic", .ofRows [
    "1024 133 2 169 5968 9 162 1 76 1 4199 32 30784 96 22414 2 57856 62 33 1"]),
  ("Deseret", .ofRows ["66560 80"]),
  ("Devanagari", .ofRows ["2304 81 4 15 2 26 40800 32 29184 10"]),
  ("Dives_Akuru", .ofRows ["71936 7 2 1 2 8 1 2 1 30 1 2 2 12 9 10"]),
  ("Dogra", .ofRows ["71680 60"]),
  ("Duployan", .ofRows ["113664 107 5 13 3 9 7 10 2 4"]),
  ("Egyptian_Hieroglyphs", .ofRows ["77824 1110"]),
  ("Elbasan", .ofRows ["66816 40"]),
  ("Elymaic", .ofRows ["69600 23"]),
  ("Ethiopic", .ofRows [
    "4608 73 1 4 2 7 1 1 1 4 2 41 1 4 2 33 1 4 2 7 1 1 1 4 2 15 1 57 1 4 2 67 2 32 3 26 6630 23",
    "9 7 1 7 1 7 1 7 1 7 1 7 1 7 1 7 32034 6 2 6 2 6 9 7 1 7 81073 7 1 4 1 2 1 15"]),
  ("Georgian", .ofRows ["4256 38 1 1 5 1 2 43 1 4 2960 43 2 3 4160 38 1 1 5 1"]),
  ("Glagolitic", .ofRows ["11264 96 111520 7 1 17 2 7 1 2 1 5"]),
  ("Gothic", .ofRows ["66352 27"]),
  ("Grantha", .ofRows [
    "70400 4 1 8 2 2 2 22 1 7 1 2 1 5 2 9 2 2 2 3 2 1 6 1 5 7 2 7 3 5"]),
  ("Greek", .ofRows [
    "880 4 1 3 2 4 1 1 4 1 1 1 1 3 1 1 1 20 1 63 14 16 6438 5 50 5 4 5 84 1 320 22 2 6 2 38 2 6",
    "2 8 1 1 1 1 1 1 1 31 2 53 1 15 1 14 2 6 1 19 2 3 1 9 295 1 35390 1 21978 79 17 1 53343 70"]),
  ("Gujarati", .ofRows [
    "2689 3 1 9 1 3 1 22 1 7 1 2 1 5 2 10 1 3 1 3 2 1 15 4 2 12 7 7"]),
  ("Gunjala_Gondi", .ofRows ["73056 6 1 2 1 37 1 2 1 6 7 10"]),
  ("Gurmukhi", .ofRows [
    "2561 3 1 6 4 2 2 22 1 7 1 2 1 2 1 2 2 1 1 5 4 2 2 3 3 1 7 4 1 1 7 17"]),
  ("Han", .ofRows [
    "11904 26 1 89 12 214 47 1 1 1 25 9 14 4 964 6592 64 20992 22784 366 2 106 29960 2 12 2",
    "36878 42720 32 4154 6 222 2 5762 14 7473 3103 542 1506 4939 5 4192"]),
  ("Hangul", .ofRows [
    "4352 256 7726 2 257 94 113 31 65 31 30433 29 643 11172 12 23 4 49 10148 31 3 6 2 6 2 6 2 3"]),
  ("Hanifi_Rohingya", .ofRows ["68864 40 8 10"]),
  ("Hanunoo", .ofRows ["5920 21"]),
  ("Hatran", .ofRows ["67808 19 1 2 5 5"]),
  ("Hebrew", .ofRows ["1425 55 8 27 4 6 62760 26 1 5 1 1 1 2 1 2 1 10"]),
  ("Hiragana", .ofRows ["12353 86 6 3 98145 287 18 1 29 3 16557 1"]),
  ("Imperial_Aramaic", .ofRows ["67648 22 1 9"]),
  ("Inherited", .ofRows [
    "768 112 277 2 452 11 26 1 736 4 4443 31 513 3 1 13 1 7 4 1 6 1 3 2 198 64 524 2 194 33",
    "3897 4 107 2 52581 16 16 14 975 1 226 1 4186 1 48068 46 2 23 544 3 17 8 2 7 30 4 798546",
    "240"]),
  ("Inscriptional_Pahlavi", .ofRows ["68448 19 5 8"]),
  ("Inscriptional_Parthian", .ofRows ["68416 22 2 8"]),
  ("Javanese", .ofRows ["43392 78 2 10 4 2"]),
  ("Kaithi", .ofRows ["69760 67 10 1"]),
  ("Kannada", .ofRows ["3200 13 1 3 1 23 1 10 1 5 2 9 1 3 1 4 7 2 6 2 1 4 2 10 1 3"]),
  ("Katakana", .ofRows [
    "12449 90 2 3 240 16 208 47 1 88 52238 10 1 45 45138 4 1 7 1 2 1 1 287 3 50 1 14 4"]),
  ("Kawi", .ofRows ["73472 17 1 41 3 28"]),
  ("Kayah_Li", .ofRows ["43264 46 1 1"]),
  ("Kharoshthi", .ofRows ["68096 4 1 2 5 8 1 3 1 29 2 3 4 10 7 9"]),
  ("Khitan_Small_Script", .ofRows ["94180 1 6939 470"]),
  ("Khmer", .ofRows ["6016 94 2 10 6 10 486 32"]),
  ("Khojki", .ofRows ["70144 18 1 47"]),
  ("Khudawadi", .ofRows ["70320 59 5 10"]),
  ("Lao", .ofRows ["3713 2 1 1 1 5 1 24 1 1 1 23 2 5 1 1 1 7 1 10 2 4"]),
  ("Latin", .ofRows [
    "65 26 6 26 47 1 15 1 5 23 1 31 1 449 39 5 6683 38 6 49 5 4 5 13 1 70 65 256 369 1 13 1 16",
    "13 141 2 6 1 27 1 17 41 2775 32 31394 102 3 64 5 2 1 1 1 5 24 14 816 43 1 9 1 4 20374 7",
    "1050 26 6 26 2085 6 1 42 1 9 55109 31 6 6"]),
  ("Lepcha", .ofRows ["7168 56 3 15 3 3"]),
  ("Limbu", .ofRows ["6400 31 1 12 4 12 4 1 3 12"]),
  ("Linear_A", .ofRows ["67072 311 9 22 10 8"]),
  ("Linear_B", .ofRows ["65536 12 1 26 1 19 1 2 1 15 2 14 34 123"]),
  ("Lisu", .ofRows ["42192 48 31408 1"]),
  ("Lycian", .ofRows ["66176 29"]),
  ("Lydian", .ofRows ["67872 26 5 1"]),
  ("Mahajani", .ofRows ["69968 39"]),
  ("Makasar", .ofRows ["73440 25"]),
  ("Malayalam", .ofRows ["3328 13 1 3 1 51 1 3 1 6 4 16 2 26"]),
  ("Mandaic", .ofRows ["2112 28 2 1"]),
  ("Manichaean", .ofRows ["68288 39 4 12"]),
  ("Marchen", .ofRows ["72816 32 2 22 1 14"]),
  ("Masaram_Gondi", .ofRows ["72960 7 1 2 1 44 3 1 1 2 1 9 8 10"]),
  ("Medefaidrin", .ofRows ["93760 91"]),
  ("Meetei_Mayek", .ofRows ["43744 23 201 46 2 10"]),
  ("Mende_Kikakui", .ofRows ["124928 197 2 16"]),
  ("Meroitic_Cursive", .ofRows ["68000 24 4 20 2 46"]),
  ("Meroitic_Hieroglyphs", .ofRows ["67968 32"]),
  ("Miao", .ofRows ["93952 75 4 57 7 17"]),
  ("Modi", .ofRows ["71168 69 11 10"]),
  ("Mongolian", .ofRows ["6144 2 2 1 1 20 6 89 7 43 64949 13"]),
  ("Mro", .ofRows ["92736 31 1 10 4 2"]),
  ("Multani", .ofRows ["70272 7 1 1 1 4 1 15 1 11"]),
  ("Myanmar", .ofRows ["4096 160 39232 31 97 32"]),
  ("Nabataean", .ofRows ["67712 31 8 9"]),
  ("Nag_Mundari", .ofRows ["124112 42"]),
  ("Nandinagari", .ofRows ["72096 8 2 46 2 11"]),
  ("New_Tai_Lue", .ofRows ["6528 44 4 26 6 11 3 2"]),
  ("Newa", .ofRows ["70656 92 1 5"]),
  ("Nko", .ofRows ["1984 59 2 3"]),
  ("Nushu", .ofRows ["94177 1 16782 396"]),
  ("Nyiakeng_Puachue_Hmong", .ofRows ["123136 45 3 14 2 10 4 2"]),
  ("Ogham", .ofRows ["5760 29"]),
  ("Ol_Chiki", .ofRows ["7248 48"]),
  ("Old_Hungarian", .ofRows ["68736 51 13 51 7 6"]),
  ("Old_Italic", .ofRows ["66304 36 9 3"]),
  ("Old_North_Arabian", .ofRows ["68224 32"]),
  ("Old_Permic", .ofRows ["66384 43"]),
  ("Old_Persian", .ofRows ["66464 36 4 14"]),
  ("Old_Sogdian", .ofRows ["69376 40"]),
  ("Old_South_Arabian", .ofRows ["68192 32"]),
  ("Old_Turkic", .ofRows ["68608 73"]),
  ("Old_Uyghur", .ofRows ["69488 26"]),
  ("Oriya", .ofRows ["2817 3 1 8 2 2 2 22 1 7 1 2 1 5 2 9 2 2 2 3 7 3 4 2 1 5 2 18"]),
  ("Osage", .ofRows ["66736 36 4 36"]),
  ("Osmanya", .ofRows ["66688 30 2 10"]),
  ("Pahawh_Hmong", .ofRows ["92928 70 10 10 1 7 1 21 5 19"]),
  ("Palmyrene", .ofRows ["67680 32"]),
  ("Pau_Cin_Hau", .ofRows ["72384 57"]),
  ("Phags_Pa", .ofRows ["43072 56"]),
  ("Phoenician", .ofRows ["67840 28 3 1"]),
  ("Psalter_Pahlavi", .ofRows ["68480 18 7 4 12 7"]),
  ("Rejang", .ofRows ["43312 36 11 1"]),
  ("Runic", .ofRows ["5792 75 3 11"]),
  ("Samaritan", .ofRows ["2048 46 2 15"]),
  ("Saurashtra", .ofRows ["43136 70 8 12"]),
  ("Sharada", .ofRows ["70016 96"]),
  ("Shavian", .ofRows ["66640 48"]),
  ("Siddham", .ofRows ["71040 54 2 38"]),
  ("SignWriting", .ofRows ["120832 652 15 5 1 15"]),
  ("Sinhala", .ofRows ["3457 3 1 18 3 24 1 9 1 1 2 7 3 1 4 6 1 1 1 8 6 10 2 3 66540 20"]),
  ("Sogdian", .ofRows ["69424 42"]),
  ("Sora_Sompeng", .ofRows ["69840 25 7 10"]),
  ("Soyombo", .ofRows ["72272 83"]),
  ("Sundanese", .ofRows ["7040 64 256 8"]),
  ("Syloti_Nagri", .ofRows ["43008 45"]),
  ("Syriac", .ofRows ["1792 14 1 60 2 3 272 11"]),
  ("Tagalog", .ofRows ["5888 22 9 1"]),
  ("Tagbanwa", .ofRows ["5984 13 1 3 1 2"]),
  ("Tai_Le", .ofRows ["6480 30 2 5"]),
  ("Tai_Tham", .ofRows ["6688 63 1 29 2 11 6 10 6 14"]),
  ("Tai_Viet", .ofRows ["43648 67 24 5"]),
  ("Takri", .ofRows ["71296 58 6 10"]),
  ("Tamil", .ofRows [
    "2946 2 1 6 3 3 1 4 3 2 1 1 1 2 3 2 3 3 3 12 4 5 3 3 1 4 2 1 6 1 14 21 70597 50 13 1"]),
  ("Tangsa", .ofRows ["92784 79 1 10"]),
  ("Tangut", .ofRows ["94176 1 31 6136 8 768 512 9"]),
  ("Telugu", .ofRows ["3072 13 1 3 1 23 1 16 2 9 1 3 1 4 7 2 1 3 2 1 2 4 2 10 7 9"]),
  ("Thaana", .ofRows ["1920 50"]),
  ("Thai", .ofRows ["3585 58 5 28"]),
  ("Tibetan", .ofRows ["3840 72 1 36 4 39 1 36 1 15 1 7 4 2"]),
  ("Tifinagh", .ofRows ["11568 56 7 2 14 1"]),
  ("Tirhuta", .ofRows ["70784 72 8 10"]),
  ("Toto", .ofRows ["123536 31"]),
  ("Ugaritic", .ofRows ["66432 30 1 1"]),
  ("Vai", .ofRows ["42240 300"]),
  ("Vithkuqi", .ofRows ["66928 11 1 15 1 7 1 2 1 11 1 15 1 7 1 2"]),
  ("Wancho", .ofRows ["123584 58 5 1"]),
  ("Warang_Citi", .ofRows ["71840 83 12 1"]),
  ("Yezidi", .ofRows ["69248 42 1 3 2 2"]),
  ("Yi", .ofRows ["40960 1165 3 55"]),
  ("Zanabazar_Square", .ofRows ["72192 72"])]

end ScopeLexer.Unicode
