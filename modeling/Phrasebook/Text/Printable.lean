import Phrasebook.Text.Letter

/-!
# Printable characters

The characters that a quoted text shows as they are. Letters, numbers, punctuation and symbols are
printable; controls, unassigned characters and blanks other than the space are not, and neither is
a mark that changes the character before it. Beyond ASCII the tables of general categories decide.
-/

namespace Phrasebook.Text

namespace Category

/-- The categories `P` and `S` beyond ASCII: punctuation and symbols. -/
def symbol : List (Nat × Nat) :=
  [(161, 169), (171, 172), (174, 177), (180, 180), (182, 184), (187, 187), (191, 191), (215, 215),
    (247, 247), (706, 709), (722, 735), (741, 747), (749, 749), (751, 767), (885, 885),
    (894, 894), (900, 901), (903, 903), (1014, 1014), (1154, 1154), (1370, 1375), (1417, 1418),
    (1421, 1423), (1470, 1470), (1472, 1472), (1475, 1475), (1478, 1478), (1523, 1524),
    (1542, 1551), (1563, 1563), (1565, 1567), (1642, 1645), (1748, 1748), (1758, 1758),
    (1769, 1769), (1789, 1790), (1792, 1805), (2038, 2041), (2046, 2047), (2096, 2110),
    (2142, 2142), (2184, 2184), (2404, 2405), (2416, 2416), (2546, 2547), (2554, 2555),
    (2557, 2557), (2678, 2678), (2800, 2801), (2928, 2928), (3059, 3066), (3191, 3191),
    (3199, 3199), (3204, 3204), (3407, 3407), (3449, 3449), (3572, 3572), (3647, 3647),
    (3663, 3663), (3674, 3675), (3841, 3863), (3866, 3871), (3892, 3892), (3894, 3894),
    (3896, 3896), (3898, 3901), (3973, 3973), (4030, 4037), (4039, 4044), (4046, 4058),
    (4170, 4175), (4254, 4255), (4347, 4347), (4960, 4968), (5008, 5017), (5120, 5120),
    (5741, 5742), (5787, 5788), (5867, 5869), (5941, 5942), (6100, 6102), (6104, 6107),
    (6144, 6154), (6464, 6464), (6468, 6469), (6622, 6655), (6686, 6687), (6816, 6822),
    (6824, 6829), (6990, 6991), (7002, 7018), (7028, 7039), (7164, 7167), (7227, 7231),
    (7294, 7295), (7360, 7367), (7379, 7379), (8125, 8125), (8127, 8129), (8141, 8143),
    (8157, 8159), (8173, 8175), (8189, 8190), (8208, 8231), (8240, 8286), (8314, 8318),
    (8330, 8334), (8352, 8385), (8448, 8449), (8451, 8454), (8456, 8457), (8468, 8468),
    (8470, 8472), (8478, 8483), (8485, 8485), (8487, 8487), (8489, 8489), (8494, 8494),
    (8506, 8507), (8512, 8516), (8522, 8525), (8527, 8527), (8586, 8587), (8592, 9257),
    (9280, 9290), (9372, 9449), (9472, 10101), (10132, 11123), (11126, 11263), (11493, 11498),
    (11513, 11516), (11518, 11519), (11632, 11632), (11776, 11822), (11824, 11869),
    (11904, 11929), (11931, 12019), (12032, 12245), (12272, 12287), (12289, 12292),
    (12296, 12320), (12336, 12336), (12342, 12343), (12349, 12351), (12443, 12444),
    (12448, 12448), (12539, 12539), (12688, 12689), (12694, 12703), (12736, 12773),
    (12783, 12783), (12800, 12830), (12842, 12871), (12880, 12880), (12896, 12927),
    (12938, 12976), (12992, 13311), (19904, 19967), (42128, 42182), (42238, 42239),
    (42509, 42511), (42611, 42611), (42622, 42622), (42738, 42743), (42752, 42774),
    (42784, 42785), (42889, 42890), (43048, 43051), (43062, 43065), (43124, 43127),
    (43214, 43215), (43256, 43258), (43260, 43260), (43310, 43311), (43359, 43359),
    (43457, 43469), (43486, 43487), (43612, 43615), (43639, 43641), (43742, 43743),
    (43760, 43761), (43867, 43867), (43882, 43883), (44011, 44011), (64297, 64297),
    (64434, 64466), (64830, 64847), (64912, 64913), (64968, 64975), (65020, 65023),
    (65040, 65049), (65072, 65106), (65108, 65126), (65128, 65131), (65281, 65295),
    (65306, 65312), (65339, 65344), (65371, 65381), (65504, 65510), (65512, 65518),
    (65532, 65533), (65792, 65794), (65847, 65855), (65913, 65929), (65932, 65934),
    (65936, 65948), (65952, 65952), (66000, 66044), (66463, 66463), (66512, 66512),
    (66927, 66927), (67671, 67671), (67703, 67704), (67871, 67871), (67903, 67903),
    (68176, 68184), (68223, 68223), (68296, 68296), (68336, 68342), (68409, 68415),
    (68505, 68508), (68974, 68974), (69006, 69007), (69293, 69293), (69328, 69336),
    (69461, 69465), (69510, 69513), (69703, 69709), (69819, 69820), (69822, 69825),
    (69952, 69955), (70004, 70005), (70085, 70088), (70093, 70093), (70107, 70107),
    (70109, 70111), (70200, 70205), (70313, 70313), (70612, 70613), (70615, 70616),
    (70731, 70735), (70746, 70747), (70749, 70749), (70854, 70854), (71105, 71127),
    (71233, 71235), (71264, 71276), (71353, 71353), (71484, 71487), (71739, 71739),
    (72004, 72006), (72162, 72162), (72255, 72262), (72346, 72348), (72350, 72354),
    (72448, 72457), (72673, 72673), (72769, 72773), (72816, 72817), (73463, 73464),
    (73539, 73551), (73685, 73713), (73727, 73727), (74864, 74868), (77809, 77810),
    (92782, 92783), (92917, 92917), (92983, 92991), (92996, 92997), (93549, 93551),
    (93847, 93850), (94178, 94178), (113820, 113820), (113823, 113823), (117760, 117999),
    (118010, 118012), (118016, 118451), (118458, 118480), (118496, 118512), (118608, 118723),
    (118784, 119029), (119040, 119078), (119081, 119140), (119146, 119148), (119171, 119172),
    (119180, 119209), (119214, 119274), (119296, 119361), (119365, 119365), (119552, 119638),
    (120513, 120513), (120539, 120539), (120571, 120571), (120597, 120597), (120629, 120629),
    (120655, 120655), (120687, 120687), (120713, 120713), (120745, 120745), (120771, 120771),
    (120832, 121343), (121399, 121402), (121453, 121460), (121462, 121475), (121477, 121483),
    (123215, 123215), (123647, 123647), (124415, 124415), (125278, 125279), (126124, 126124),
    (126128, 126128), (126254, 126254), (126704, 126705), (126976, 127019), (127024, 127123),
    (127136, 127150), (127153, 127167), (127169, 127183), (127185, 127221), (127245, 127405),
    (127462, 127490), (127504, 127547), (127552, 127560), (127568, 127569), (127584, 127589),
    (127744, 128728), (128732, 128748), (128752, 128764), (128768, 128985), (128992, 129003),
    (129008, 129008), (129024, 129035), (129040, 129095), (129104, 129113), (129120, 129159),
    (129168, 129197), (129200, 129211), (129216, 129217), (129232, 129240), (129280, 129623),
    (129632, 129645), (129648, 129660), (129664, 129674), (129678, 129734), (129736, 129736),
    (129741, 129756), (129759, 129770), (129775, 129784), (129792, 129938), (129940, 130031),
    (130042, 130042)]

/-- Combining marks that take up room of their own. -/
def spacingMark : List (Nat × Nat) :=
  [(2307, 2307), (2363, 2363), (2366, 2368), (2377, 2380), (2382, 2383), (2434, 2435),
    (2495, 2496), (2503, 2504), (2507, 2508), (2563, 2563), (2622, 2624), (2691, 2691),
    (2750, 2752), (2761, 2761), (2763, 2764), (2818, 2819), (2880, 2880), (2887, 2888),
    (2891, 2892), (3007, 3007), (3009, 3010), (3014, 3016), (3018, 3020), (3073, 3075),
    (3137, 3140), (3202, 3203), (3262, 3262), (3265, 3265), (3267, 3268), (3315, 3315),
    (3330, 3331), (3391, 3392), (3398, 3400), (3402, 3404), (3458, 3459), (3536, 3537),
    (3544, 3550), (3570, 3571), (3902, 3903), (3967, 3967), (4139, 4140), (4145, 4145),
    (4152, 4152), (4155, 4156), (4182, 4183), (4194, 4196), (4199, 4205), (4227, 4228),
    (4231, 4236), (4239, 4239), (4250, 4252), (6070, 6070), (6078, 6085), (6087, 6088),
    (6435, 6438), (6441, 6443), (6448, 6449), (6451, 6456), (6681, 6682), (6741, 6741),
    (6743, 6743), (6753, 6753), (6755, 6756), (6765, 6770), (6916, 6916), (6974, 6977),
    (7042, 7042), (7073, 7073), (7078, 7079), (7143, 7143), (7146, 7148), (7150, 7150),
    (7204, 7211), (7220, 7221), (7393, 7393), (7415, 7415), (43043, 43044), (43047, 43047),
    (43136, 43137), (43188, 43203), (43346, 43346), (43395, 43395), (43444, 43445),
    (43450, 43451), (43454, 43455), (43567, 43568), (43571, 43572), (43597, 43597),
    (43643, 43643), (43645, 43645), (43755, 43755), (43758, 43759), (43765, 43765),
    (44003, 44004), (44006, 44007), (44009, 44010), (44012, 44012), (69632, 69632),
    (69634, 69634), (69762, 69762), (69808, 69810), (69815, 69816), (69932, 69932),
    (69957, 69958), (70018, 70018), (70067, 70069), (70079, 70079), (70094, 70094),
    (70188, 70190), (70194, 70195), (70368, 70370), (70402, 70403), (70463, 70463),
    (70465, 70468), (70471, 70472), (70475, 70476), (70498, 70499), (70585, 70586),
    (70602, 70602), (70604, 70605), (70709, 70711), (70720, 70721), (70725, 70725),
    (70833, 70834), (70841, 70841), (70843, 70844), (70846, 70846), (70849, 70849),
    (71088, 71089), (71096, 71099), (71102, 71102), (71216, 71218), (71227, 71228),
    (71230, 71230), (71340, 71340), (71342, 71343), (71454, 71454), (71456, 71457),
    (71462, 71462), (71724, 71726), (71736, 71736), (71985, 71989), (71991, 71992),
    (72000, 72000), (72002, 72002), (72145, 72147), (72156, 72159), (72164, 72164),
    (72249, 72249), (72279, 72280), (72343, 72343), (72545, 72545), (72549, 72549),
    (72551, 72551), (72751, 72751), (72766, 72766), (72873, 72873), (72881, 72881),
    (72884, 72884), (73098, 73102), (73107, 73108), (73110, 73110), (73461, 73462),
    (73475, 73475), (73524, 73525), (73534, 73535), (90410, 90412), (94033, 94087)]

end Category

/-- Whether a mark changes the character before it. -/
def extendsCharacter (c : Char) : Bool :=
  let code := c.toNat
  (inRanges Category.mark code && !inRanges Category.spacingMark code) || code == 0x200C ||
    code == 0xFF9E || code == 0xFF9F || (0xE0020 ≤ code && code ≤ 0xE007F)

/-- Whether a quoted text shows a character as it is. -/
def isPrintable (c : Char) : Bool :=
  let code := c.toNat
  if code < 128 then 32 ≤ code && code < 127
  else
    (inRanges Category.letter code || inRanges Category.spacingMark code ||
      inRanges Category.decimalNumber code || inRanges Category.letterNumber code ||
      inRanges Category.otherNumber code || inRanges Category.symbol code) &&
      !extendsCharacter c

end Phrasebook.Text
